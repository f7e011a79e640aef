import ScriptLang.Character.Age
import ScriptLang.Character.Break

/-!
# Queries for characters

What a pattern may ask of a character, by name.

* A name alone (`Query.named`) is that of a property that a character has or has not, of a general
  category or of a script.
* A name with a value (`Query.valued`) is that of a property with several values. Only some have
  their values here; of the others no value is known.
* Names may differ in capitals, blanks and joining signs, and in `is` at the beginning
  (`Query.normalize`).
-/

namespace ScriptLang.Query

/-- Why there are no characters for a query. -/
inductive Fault where
  | propertyUnknown
  | valueUnknown
  deriving DecidableEq, Repr

/-- A name without capitals, blanks and joining signs, and without `is` at its beginning. -/
def normalize (name : String) : String :=
  let lowered := name.toList.map Char.toLower
  let hasIs := ['i', 's'].isPrefixOf lowered
  let kept := (if hasIs then lowered.drop 2 else lowered).filter fun c =>
    c.toNat < 128 && c != ' ' && c != '_' && c != '-'
  if hasIs && kept == ['c'] then "isc" else String.ofList kept

/-- The names of categories and scripts that have no characters. -/
def vacant : List String :=
  ["cs", "surrogate", "zzzz", "unknown", "hrkt", "katakanaorhiragana"]

/-- The characters that have what a name says. Some short names of categories are also those of
properties, and stand for the categories. -/
def named (name : String) : Except Fault Ranges :=
  let wanted := normalize name
  match Property.find? wanted <|> Category.find? wanted <|> Script.find? wanted with
  | some set => .ok set
  | none => .error (if vacant.contains wanted then .valueUnknown else .propertyUnknown)

/-- The names of the properties of which no value is known here, but for those that a character has
or has not. -/
def unvalued : List String :=
  ["bc", "bidiclass", "bidimirroringglyph", "bidipairedbracket",
    "bidipairedbrackettype", "blk", "block", "bmg", "bpb", "bpt", "canonicalcombiningclass",
    "casefolding", "ccc", "ce", "cf", "changeswhennfkccasefolded", "cjkaccountingnumeric",
    "cjkcompatibilityvariant", "cjkiicore", "cjkirggsource", "cjkirghsource", "cjkirgjsource",
    "cjkirgkpsource", "cjkirgksource", "cjkirgmsource", "cjkirgssource", "cjkirgtsource",
    "cjkirguksource", "cjkirgusource", "cjkirgvsource", "cjkothernumeric", "cjkprimarynumeric",
    "cjkrsunicode", "compex", "compositionexclusion", "cwkcf", "decompositionmapping",
    "decompositiontype", "dm", "dt", "ea", "eastasianwidth", "equideo",
    "equivalentunifiedideograph", "expandsonnfc", "expandsonnfd", "expandsonnfkc",
    "expandsonnfkd", "fcnfkc", "fcnfkcclosure", "fullcompositionexclusion",
    "hangulsyllabletype", "hst", "incb", "indicconjunctbreak", "indicpositionalcategory",
    "indicsyllabiccategory", "inpc", "insc", "isc", "jamoshortname", "jg", "joininggroup",
    "joiningtype", "jsn", "jt", "kaccountingnumeric", "kcompatibilityvariant", "kehcat",
    "kehcore", "kehdesc", "kehhg", "kehifao", "kehjsesh", "kehnomirror", "kehnorotate",
    "kiicore", "kirggsource", "kirghsource", "kirgjsource", "kirgkpsource", "kirgksource",
    "kirgmsource", "kirgssource", "kirgtsource", "kirguksource", "kirgusource", "kirgvsource",
    "kothernumeric", "kprimarynumeric", "krsunicode", "lb", "lc", "linebreak",
    "lowercasemapping", "na", "na1", "name", "namealias", "nfcqc", "nfcquickcheck", "nfdqc",
    "nfdquickcheck", "nfkccasefold", "nfkccf", "nfkcqc", "nfkcquickcheck", "nfkcscf",
    "nfkcsimplecasefold", "nfkdqc", "nfkdquickcheck", "nt", "numerictype", "numericvalue", "nv",
    "ocomment", "scf", "sfc", "simplecasefolding", "simplelowercasemapping",
    "simpletitlecasemapping", "simpleuppercasemapping", "slc", "stc", "suc", "tc",
    "titlecasemapping", "uc", "unicode1name", "unicoderadicalstroke", "uppercasemapping", "urs",
    "verticalorientation", "vo", "xonfc", "xonfd", "xonfkc", "xonfkd"]

/-- The characters that have a value of a property, if both are known. -/
def valued (name value : String) : Except Fault Ranges :=
  let property := normalize name
  let wanted := normalize value
  let known (set : Option Ranges) : Except Fault Ranges :=
    match set with
    | some set => .ok set
    | none => .error .valueUnknown
  if ["gc", "generalcategory"].contains property then known (Category.find? wanted)
  else if ["sc", "script"].contains property then known (Script.find? wanted)
  else if ["scx", "scriptextensions"].contains property then known (Script.extension? wanted)
  else if property == "age" then known (Age.find? wanted)
  else if ["gcb", "graphemeclusterbreak"].contains property then
    known (NamedSet.find? Break.grapheme wanted)
  else if ["wb", "wordbreak"].contains property then known (NamedSet.find? Break.word wanted)
  else if ["sb", "sentencebreak"].contains property then
    known (NamedSet.find? Break.sentence wanted)
  else if unvalued.contains property || (Property.find? property).isSome then
    .error .valueUnknown
  else .error .propertyUnknown

end ScriptLang.Query
