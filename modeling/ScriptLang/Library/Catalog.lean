/-!
# The library's functions

Every library function by name: the functions that all programs see and those of the modules that a
program can import. What they do stands in the modules of this folder; here are their names and the
numbers of arguments that they take.

* An `Arity` says how many arguments a library function takes.
* A `Builtin` is a library function, `Builtin.name` its name and `Builtin.arity` the accepted
  numbers of arguments.
* A `StandardModule` is an importable module; `StandardModule.functions` lists what it offers, in
  the order in which a program sees it.
-/

namespace ScriptLang

/-- The accepted numbers of arguments. -/
inductive Arity where
  /-- This many. -/
  | exact (count : Nat)
  /-- From `least` to `most`, both included. -/
  | range (least most : Nat)
  /-- This many or more. -/
  | atLeast (least : Nat)
  deriving DecidableEq, Repr, Inhabited

namespace Arity

/-- Whether a number of arguments is accepted. -/
def accepts : Arity → Nat → Bool
  | .exact k, n => n == k
  | .range least most, n => least ≤ n && n ≤ most
  | .atLeast least, n => least ≤ n

/-- The accepted numbers, as a message states them. -/
def describe : Arity → String
  | .exact k => toString k
  | .range least most => s!"{least}-{most}"
  | .atLeast least => s!"at least {least}"

/-- The name in dumps. -/
def dump : Arity → String
  | .exact k => s!"Exact({k})"
  | .range least most => s!"Range({least}, {most})"
  | .atLeast least => s!"AtLeast({least})"

@[simp] theorem accepts_exact (k n : Nat) : (exact k).accepts n = true ↔ n = k := by
  simp [accepts]

@[simp] theorem accepts_range (a b n : Nat) : (range a b).accepts n = true ↔ a ≤ n ∧ n ≤ b := by
  simp [accepts]

@[simp] theorem accepts_atLeast (a n : Nat) : (atLeast a).accepts n = true ↔ a ≤ n := by
  simp [accepts]

end Arity

end ScriptLang

/-! ### Functions -/

namespace ScriptLang

/-- Functions that every program sees. -/
inductive CoreFn where
  | len | get | update | typeOf | push | pop | slice | range | join | hasProperty | keys | values
  | entries | getArguments | getEnv | exitCode | coalesce | getPropertySafe | ifElse
  deriving DecidableEq, Repr

namespace CoreFn

/-- The functions, in order. -/
def all : List CoreFn :=
  [.len, .get, .update, .typeOf, .push, .pop, .slice, .range, .join, .hasProperty, .keys, .values,
    .entries, .getArguments, .getEnv, .exitCode, .coalesce, .getPropertySafe, .ifElse]

/-- Name and arity. -/
def signature : CoreFn → String × Arity
  | .len => ("len", .exact 1)
  | .get => ("get", .exact 2)
  | .update => ("update", .exact 3)
  | .typeOf => ("type", .exact 1)
  | .push => ("push", .exact 2)
  | .pop => ("pop", .exact 1)
  | .slice => ("slice", .range 1 3)
  | .range => ("range", .range 1 3)
  | .join => ("join", .exact 2)
  | .hasProperty => ("has_property", .exact 2)
  | .keys => ("keys", .exact 1)
  | .values => ("values", .exact 1)
  | .entries => ("entries", .exact 1)
  | .getArguments => ("get_arguments", .exact 0)
  | .getEnv => ("get_env", .exact 1)
  | .exitCode => ("exit_code", .exact 1)
  | .coalesce => ("coalesce", .exact 2)
  | .getPropertySafe => ("get_property_safe", .exact 2)
  | .ifElse => ("if_else", .exact 3)

end CoreFn

/-- Functions of the module `array`. -/
inductive ArrayFn where
  | map | filter | reduce | forEach | find | findIndex | includes | indexOf | lastIndexOf | slice
  | first | last | isEmpty | sort | reverse | concat | unique | intersection | unionOf
  | difference
  deriving DecidableEq, Repr

namespace ArrayFn

/-- The functions, in order. -/
def all : List ArrayFn :=
  [.map, .filter, .reduce, .forEach, .find, .findIndex, .includes, .indexOf, .lastIndexOf, .slice,
    .first, .last, .isEmpty, .sort, .reverse, .concat, .unique, .intersection, .unionOf,
    .difference]

/-- Name and arity. -/
def signature : ArrayFn → String × Arity
  | .map => ("map", .exact 2)
  | .filter => ("filter", .exact 2)
  | .reduce => ("reduce", .range 2 3)
  | .forEach => ("for_each", .exact 2)
  | .find => ("find", .exact 2)
  | .findIndex => ("find_index", .exact 2)
  | .includes => ("includes", .range 2 3)
  | .indexOf => ("index_of", .range 2 3)
  | .lastIndexOf => ("last_index_of", .range 2 3)
  | .slice => ("slice", .range 1 3)
  | .first => ("first", .exact 1)
  | .last => ("last", .exact 1)
  | .isEmpty => ("is_empty", .exact 1)
  | .sort => ("sort", .exact 1)
  | .reverse => ("reverse", .exact 1)
  | .concat => ("concat", .atLeast 1)
  | .unique => ("unique", .exact 1)
  | .intersection => ("intersection", .exact 2)
  | .unionOf => ("union", .exact 2)
  | .difference => ("difference", .exact 2)

end ArrayFn

/-- Functions of the module `assert`. -/
inductive AssertFn where
  | eq | neq | isTrue | isFalse | throws
  deriving DecidableEq, Repr

namespace AssertFn

/-- The functions, in order. -/
def all : List AssertFn :=
  [.eq, .neq, .isTrue, .isFalse, .throws]

/-- Name and arity. -/
def signature : AssertFn → String × Arity
  | .eq => ("eq", .range 2 3)
  | .neq => ("neq", .range 2 3)
  | .isTrue => ("true", .range 1 2)
  | .isFalse => ("false", .range 1 2)
  | .throws => ("throws", .range 1 2)

end AssertFn

/-- Functions of the module `datetime`. -/
inductive DatetimeFn where
  | now | getTimestamp | fromTimestamp | toIsoString | format
  deriving DecidableEq, Repr

namespace DatetimeFn

/-- The functions, in order. -/
def all : List DatetimeFn :=
  [.now, .getTimestamp, .fromTimestamp, .toIsoString, .format]

/-- Name and arity. -/
def signature : DatetimeFn → String × Arity
  | .now => ("now", .exact 0)
  | .getTimestamp => ("get_timestamp", .exact 1)
  | .fromTimestamp => ("from_timestamp", .exact 1)
  | .toIsoString => ("to_iso_string", .exact 1)
  | .format => ("format", .exact 2)

end DatetimeFn

/-- Functions of the module `env`. -/
inductive EnvFn where
  | get | has | everything
  deriving DecidableEq, Repr

namespace EnvFn

/-- The functions, in order. -/
def all : List EnvFn :=
  [.get, .has, .everything]

/-- Name and arity. -/
def signature : EnvFn → String × Arity
  | .get => ("get", .range 1 2)
  | .has => ("has", .exact 1)
  | .everything => ("all", .exact 0)

end EnvFn

/-- Functions of the module `fs`. -/
inductive FilesFn where
  | readFile | writeFile | present | listDir | makeDir | removeFile | removeDir
  deriving DecidableEq, Repr

namespace FilesFn

/-- The functions, in order. -/
def all : List FilesFn :=
  [.readFile, .writeFile, .present, .listDir, .makeDir, .removeFile, .removeDir]

/-- Name and arity. -/
def signature : FilesFn → String × Arity
  | .readFile => ("read_file", .exact 1)
  | .writeFile => ("write_file", .exact 2)
  | .present => ("exists", .exact 1)
  | .listDir => ("list_dir", .exact 1)
  | .makeDir => ("make_dir", .range 1 2)
  | .removeFile => ("remove_file", .exact 1)
  | .removeDir => ("remove_dir", .range 1 2)

end FilesFn

/-- Functions of the module `http`. -/
inductive HttpFn where
  | get | post
  deriving DecidableEq, Repr

namespace HttpFn

/-- The functions, in order. -/
def all : List HttpFn :=
  [.get, .post]

/-- Name and arity. -/
def signature : HttpFn → String × Arity
  | .get => ("get", .exact 1)
  | .post => ("post", .range 2 3)

end HttpFn

/-- Functions of the module `json`. -/
inductive JsonFn where
  | parse | stringify
  deriving DecidableEq, Repr

namespace JsonFn

/-- The functions, in order. -/
def all : List JsonFn :=
  [.parse, .stringify]

/-- Name and arity. -/
def signature : JsonFn → String × Arity
  | .parse => ("parse", .exact 1)
  | .stringify => ("stringify", .range 1 2)

end JsonFn

/-- Functions of the module `math`. -/
inductive MathFn where
  | sin | cos | tan | asin | acos | atan | atan2 | log | log10 | log2 | exp | pow | sqrt | cbrt
  | floor | ceil | round | abs | max | min | random | seed | randint
  deriving DecidableEq, Repr

namespace MathFn

/-- The functions, in order. -/
def all : List MathFn :=
  [.sin, .cos, .tan, .asin, .acos, .atan, .atan2, .log, .log10, .log2, .exp, .pow, .sqrt, .cbrt,
    .floor, .ceil, .round, .abs, .max, .min, .random, .seed, .randint]

/-- Name and arity. -/
def signature : MathFn → String × Arity
  | .sin => ("sin", .exact 1)
  | .cos => ("cos", .exact 1)
  | .tan => ("tan", .exact 1)
  | .asin => ("asin", .exact 1)
  | .acos => ("acos", .exact 1)
  | .atan => ("atan", .exact 1)
  | .atan2 => ("atan2", .exact 2)
  | .log => ("log", .exact 1)
  | .log10 => ("log10", .exact 1)
  | .log2 => ("log2", .exact 1)
  | .exp => ("exp", .exact 1)
  | .pow => ("pow", .exact 2)
  | .sqrt => ("sqrt", .exact 1)
  | .cbrt => ("cbrt", .exact 1)
  | .floor => ("floor", .exact 1)
  | .ceil => ("ceil", .exact 1)
  | .round => ("round", .exact 1)
  | .abs => ("abs", .exact 1)
  | .max => ("max", .atLeast 1)
  | .min => ("min", .atLeast 1)
  | .random => ("random", .exact 0)
  | .seed => ("seed", .exact 1)
  | .randint => ("randint", .exact 2)

end MathFn

/-- Functions of the module `object`. -/
inductive ObjectFn where
  | merge | pick | omit | mapValues | fromEntries | isEmpty
  deriving DecidableEq, Repr

namespace ObjectFn

/-- The functions, in order. -/
def all : List ObjectFn :=
  [.merge, .pick, .omit, .mapValues, .fromEntries, .isEmpty]

/-- Name and arity. -/
def signature : ObjectFn → String × Arity
  | .merge => ("merge", .atLeast 0)
  | .pick => ("pick", .exact 2)
  | .omit => ("omit", .exact 2)
  | .mapValues => ("map_values", .exact 2)
  | .fromEntries => ("from_entries", .exact 1)
  | .isEmpty => ("is_empty", .exact 1)

end ObjectFn

/-- Functions of the module `path`. -/
inductive PathFn where
  | join | dirname | basename | extname | resolve | isAbsolute
  deriving DecidableEq, Repr

namespace PathFn

/-- The functions, in order. -/
def all : List PathFn :=
  [.join, .dirname, .basename, .extname, .resolve, .isAbsolute]

/-- Name and arity. -/
def signature : PathFn → String × Arity
  | .join => ("join", .atLeast 1)
  | .dirname => ("dirname", .exact 1)
  | .basename => ("basename", .range 1 2)
  | .extname => ("extname", .exact 1)
  | .resolve => ("resolve", .atLeast 1)
  | .isAbsolute => ("is_absolute", .exact 1)

end PathFn

/-- Functions of the module `regex`. -/
inductive RegexFn where
  | findMatches | isMatch | replaceAll | extract
  deriving DecidableEq, Repr

namespace RegexFn

/-- The functions, in order. -/
def all : List RegexFn :=
  [.findMatches, .isMatch, .replaceAll, .extract]

/-- Name and arity. -/
def signature : RegexFn → String × Arity
  | .findMatches => ("find_matches", .range 2 3)
  | .isMatch => ("is_match", .range 2 3)
  | .replaceAll => ("replace_all", .range 3 4)
  | .extract => ("extract", .range 2 3)

end RegexFn

/-- Functions of the module `string`. -/
inductive StringFn where
  | toUpper | toLower | trim | trimStart | trimEnd | padStart | padEnd | contains | startsWith
  | endsWith | indexOf | lastIndexOf | substring | slice | split | replace | replaceAll
  | repeated | charAt | isEmpty | isBlank | toTitleCase | capitalize
  deriving DecidableEq, Repr

namespace StringFn

/-- The functions, in order. -/
def all : List StringFn :=
  [.toUpper, .toLower, .trim, .trimStart, .trimEnd, .padStart, .padEnd, .contains, .startsWith,
    .endsWith, .indexOf, .lastIndexOf, .substring, .slice, .split, .replace, .replaceAll,
    .repeated, .charAt, .isEmpty, .isBlank, .toTitleCase, .capitalize]

/-- Name and arity. -/
def signature : StringFn → String × Arity
  | .toUpper => ("to_upper", .exact 1)
  | .toLower => ("to_lower", .exact 1)
  | .trim => ("trim", .exact 1)
  | .trimStart => ("trim_start", .exact 1)
  | .trimEnd => ("trim_end", .exact 1)
  | .padStart => ("pad_start", .range 2 3)
  | .padEnd => ("pad_end", .range 2 3)
  | .contains => ("contains", .range 2 3)
  | .startsWith => ("starts_with", .range 2 3)
  | .endsWith => ("ends_with", .range 2 3)
  | .indexOf => ("index_of", .range 2 3)
  | .lastIndexOf => ("last_index_of", .range 2 3)
  | .substring => ("substring", .range 2 3)
  | .slice => ("slice", .range 2 3)
  | .split => ("split", .range 1 3)
  | .replace => ("replace", .exact 3)
  | .replaceAll => ("replace_all", .exact 3)
  | .repeated => ("repeat", .exact 2)
  | .charAt => ("char_at", .exact 2)
  | .isEmpty => ("is_empty", .exact 1)
  | .isBlank => ("is_blank", .exact 1)
  | .toTitleCase => ("to_title_case", .exact 1)
  | .capitalize => ("capitalize", .exact 1)

end StringFn

/-- A library function. -/
inductive Builtin where
  | core (f : CoreFn)
  | array (f : ArrayFn)
  | assert (f : AssertFn)
  | datetime (f : DatetimeFn)
  | env (f : EnvFn)
  | fs (f : FilesFn)
  | http (f : HttpFn)
  | json (f : JsonFn)
  | math (f : MathFn)
  | object (f : ObjectFn)
  | path (f : PathFn)
  | regex (f : RegexFn)
  | string (f : StringFn)
  deriving DecidableEq, Repr

namespace Builtin

/-- Name and arity. -/
def signature : Builtin → String × Arity
  | .core f => f.signature
  | .array f => f.signature
  | .assert f => f.signature
  | .datetime f => f.signature
  | .env f => f.signature
  | .fs f => f.signature
  | .http f => f.signature
  | .json f => f.signature
  | .math f => f.signature
  | .object f => f.signature
  | .path f => f.signature
  | .regex f => f.signature
  | .string f => f.signature

/-- The name, as a program sees it. -/
def name (b : Builtin) : String := b.signature.1

/-- The accepted numbers of arguments. -/
def arity (b : Builtin) : Arity := b.signature.2

end Builtin

/-- A module that a program can import by name. -/
inductive StandardModule where
  | array | assert | datetime | env | fs | http | json | math | object | path | regex | string
  deriving DecidableEq, Repr

namespace StandardModule

/-- The name that an import gives. -/
def name : StandardModule → String
  | .array => "array"
  | .assert => "assert"
  | .datetime => "datetime"
  | .env => "env"
  | .fs => "fs"
  | .http => "http"
  | .json => "json"
  | .math => "math"
  | .object => "object"
  | .path => "path"
  | .regex => "regex"
  | .string => "string"

/-- The modules, in the order of their names. -/
def all : List StandardModule :=
  [.array, .assert, .datetime, .env, .fs, .http, .json, .math, .object, .path, .regex, .string]

/-- The module of a name. -/
def ofName? (name : String) : Option StandardModule := all.find? (·.name == name)

/-- The functions that a module offers, in order. -/
def functions : StandardModule → List Builtin
  | .array => ArrayFn.all.map .array
  | .assert => AssertFn.all.map .assert
  | .datetime => DatetimeFn.all.map .datetime
  | .env => EnvFn.all.map .env
  | .fs => FilesFn.all.map .fs
  | .http => HttpFn.all.map .http
  | .json => JsonFn.all.map .json
  | .math => MathFn.all.map .math
  | .object => ObjectFn.all.map .object
  | .path => PathFn.all.map .path
  | .regex => RegexFn.all.map .regex
  | .string => StringFn.all.map .string

@[simp] theorem ofName?_name (m : StandardModule) : ofName? m.name = some m := by
  cases m <;> rfl

end StandardModule

end ScriptLang
