import ScriptLang.Proofs.AssociationLists
import ScriptLang.Proofs.LaterScopes
import ScriptLang.Proofs.LocatedTrees
import ScriptLang.Proofs.ScopeFrame
import ScriptLang.Proofs.ScopeTree
import ScriptLang.Proofs.WellFormedTrees

/-!
# Matched cases

A match computes its value once and goes through the cases in order. Each case whose pattern matches
gets a scope with the names of the pattern, in which its condition is computed. The first one whose
condition holds is run; the scopes of those before it are left behind.

* `Pattern.Matches` tells which values a pattern matches and lists the values that its names stand
  for, from left to right. The matcher collects them in a map as it goes, and gives the map up where
  a part does not match (`Pattern.matchOnto_eq_some_iff`).
* `Machine.inCase` is the machine in the scope of a case. That scope is opened without a failure,
  whatever the pattern, since the map has every name once (`Machine.opens`, `Eval.defineAll_eq`).
* `Eval.Passes` — no case of a list is run, and which scopes that leaves behind.
  `Eval.Passes.leavesBehind` says that nobody sees them: no search of a later case or of what
  follows the match comes to one of them.
* `Eval.Chooses` tells how a match ends, and `match_runs_first_case` is the main statement.

A function that a condition makes keeps the scope of its case, and sees the names there whenever it
is called. It is text of the condition itself; no text of a later case or after the match sees them.
-/

namespace ScriptLang

open Eval

/-! ### Patterns -/

/-- **Denotes.** A literal stands for the values of its type that equal it. -/
inductive Literal.Denotes : Literal → Value → Prop
  | number {x y : Float} (h : (y == x) = true) : Denotes (.number x) (.number y)
  | string (s : String) : Denotes (.string s) (.string s)
  | boolean (b : Bool) : Denotes (.boolean b) (.bool b)
  | null : Denotes .null .null

theorem Value.isLiteral_iff {v : Value} {l : Literal} : v.isLiteral l = true ↔ l.Denotes v := by
  constructor
  · intro h
    cases l with
    | number x => cases v <;> first | exact .number h | cases h
    | string s =>
      cases v with
      | string s' =>
        obtain rfl : s' = s := by simpa [isLiteral, same] using h
        exact .string s'
      | _ => cases h
    | boolean b =>
      cases v with
      | bool b' =>
        obtain rfl : b' = b := by simpa [isLiteral, same] using h
        exact .boolean b'
      | _ => cases h
    | null => cases v <;> first | exact .null | cases h
  · intro h
    cases h with
    | number h => exact h
    | string s => simp [isLiteral, same]
    | boolean b => simp [isLiteral, same]
    | null => rfl

mutual

/-- **Matches.** A pattern matches a value, and its names stand for these values, from left to
right. -/
inductive Pattern.Matches (h : Heap) : Pattern → Value → List (String × Value) → Prop
  | literal {l : Literal} {v : Value} (hv : l.Denotes v) : Matches h (.literal l) v []
  | bind (name : String) (v : Value) : Matches h (.bind name) v [(name, v)]
  | array {ps : List Pattern} {r : Ref} {bs : List (String × Value)}
    (hall : Pattern.MatchesAll h ps (h.array r).toList bs) : Matches h (.array ps) (.array r) bs

/-- As many patterns match as many values, one by one. -/
inductive Pattern.MatchesAll (h : Heap) : List Pattern → List Value → List (String × Value) → Prop
  | nil : MatchesAll h [] [] []
  | cons {p : Pattern} {ps : List Pattern} {v : Value} {vs : List Value}
    {bs bs' : List (String × Value)} (hp : Pattern.Matches h p v bs)
    (hps : Pattern.MatchesAll h ps vs bs') : MatchesAll h (p :: ps) (v :: vs) (bs ++ bs')

end

mutual

/-- The names of a pattern, from left to right. -/
def Pattern.names : Pattern → List String
  | .literal _ => []
  | .bind name => [name]
  | .array elements => Pattern.namesOfAll elements

/-- The names of patterns, from left to right. -/
def Pattern.namesOfAll : List Pattern → List String
  | [] => []
  | p :: ps => p.names ++ Pattern.namesOfAll ps

end

namespace Pattern

variable {h : Heap}

mutual

/-- Only the names of the pattern stand for something. -/
theorem Matches.names {p : Pattern} {v : Value} {bs : List (String × Value)}
    (hp : p.Matches h v bs) : bs.map Prod.fst = p.names := by
  cases hp with
  | literal _ => rfl
  | bind name v => rfl
  | array hall => exact hall.names

theorem MatchesAll.names {ps : List Pattern} {vs : List Value} {bs : List (String × Value)}
    (hps : MatchesAll h ps vs bs) : bs.map Prod.fst = namesOfAll ps := by
  cases hps with
  | nil => rfl
  | cons hp hps => rw [List.map_append, hp.names, hps.names, namesOfAll]

end

mutual

/-- **The matcher.** What it gives is what was bound before, with the names of the pattern inserted
one after the other. It gives nothing where the pattern does not match. -/
theorem matchOnto_eq_some_iff (p : Pattern) {bound b : OrderedMap Value} {v : Value} :
    p.matchOnto h bound v = some b ↔ ∃ bs, p.Matches h v bs ∧ b = bound.insertAll bs := by
  -- By induction on the pattern, as the matcher goes; an array of patterns needs an array.
  cases p with
  | literal l =>
    rw [matchOnto]
    constructor
    · intro hb
      split at hb
      · cases hb
        exact ⟨[], .literal (Value.isLiteral_iff.mp ‹_›), rfl⟩
      · cases hb
    · rintro ⟨bs, hp, rfl⟩
      cases hp with
      | literal hv =>
        rw [if_pos (Value.isLiteral_iff.mpr hv)]
        rfl
  | bind name =>
    rw [matchOnto]
    constructor
    · intro hb
      cases hb
      exact ⟨_, .bind name v, rfl⟩
    · rintro ⟨bs, hp, rfl⟩
      cases hp
      rfl
  | array elements =>
    cases v with
    | array r =>
      rw [matchOnto, matchAllOnto_eq_some_iff elements]
      constructor
      · rintro ⟨bs, hall, rfl⟩
        exact ⟨bs, .array hall, rfl⟩
      · rintro ⟨bs, hp, rfl⟩
        cases hp with
        | array hall => exact ⟨bs, hall, rfl⟩
    | _ => exact ⟨nofun, fun ⟨_, hp, _⟩ => nomatch hp⟩

theorem matchAllOnto_eq_some_iff (ps : List Pattern) {bound b : OrderedMap Value}
    {vs : List Value} : matchAllOnto h bound vs ps = some b ↔
      ∃ bs, MatchesAll h ps vs bs ∧ b = bound.insertAll bs := by
  cases ps with
  | nil =>
    cases vs with
    | nil =>
      constructor
      · intro hb
        cases hb
        exact ⟨[], .nil, rfl⟩
      · rintro ⟨bs, hps, rfl⟩
        cases hps
        rfl
    -- There are not as many of both.
    | cons v vs => exact ⟨nofun, fun ⟨_, hps, _⟩ => nomatch hps⟩
  | cons p ps =>
    cases vs with
    | nil => exact ⟨nofun, fun ⟨_, hps, _⟩ => nomatch hps⟩
    | cons v vs =>
      rw [matchAllOnto]
      constructor
      · intro hb
        cases hfirst : p.matchOnto h bound v with
        | none =>
          rw [hfirst] at hb
          cases hb
        | some bound' =>
          rw [hfirst] at hb
          obtain ⟨bs, hp, rfl⟩ := (matchOnto_eq_some_iff p).mp hfirst
          obtain ⟨bs', hps, rfl⟩ := (matchAllOnto_eq_some_iff ps).mp hb
          exact ⟨_, .cons hp hps, (bound.insertAll_append bs bs').symm⟩
      · rintro ⟨bs, hps, rfl⟩
        cases hps with
        | cons hp hps =>
          rw [(matchOnto_eq_some_iff p).mpr ⟨_, hp, rfl⟩]
          exact (matchAllOnto_eq_some_iff ps).mpr ⟨_, hps, bound.insertAll_append _ _⟩

end

end Pattern

/-- **Matches.** A case without a pattern matches every value. -/
inductive Case.Matches (h : Heap) (case : Case) (v : Value) : List (String × Value) → Prop
  | always (hp : case.pattern? = none) : Matches h case v []
  | pattern {p : Pattern} {bs : List (String × Value)} (hp : case.pattern? = some p)
    (hbs : p.Matches h v bs) : Matches h case v bs

/-- The names of the pattern of a case. -/
def Case.names (case : Case) : List String := (case.pattern?.map Pattern.names).getD []

namespace Case.Matches

variable {case : Case} {v : Value} {bs : List (String × Value)} {m : Machine}

theorem names {h : Heap} (hbs : case.Matches h v bs) : bs.map Prod.fst = case.names := by
  cases hbs with
  | always hp =>
    rw [Case.names, hp]
    rfl
  | pattern hp hbs =>
    rw [Case.names, hp]
    exact hbs.names

theorem caseNames (hbs : case.Matches m.heap v bs) :
    Eval.caseNames v case.pattern? m = .ok (some (.ofList bs)) m := by
  cases hbs with
  | always hp =>
    rw [hp]
    rfl
  | pattern hp hbs =>
    rw [hp]
    exact congrArg (Outcome.ok · m) ((Pattern.matchOnto_eq_some_iff _).mpr ⟨_, hbs, rfl⟩)

theorem caseNames_none (hno : ∀ bs, ¬ case.Matches m.heap v bs) :
    Eval.caseNames v case.pattern? m = .ok none m := by
  cases hp : case.pattern? with
  | none => exact absurd (.always hp) (hno [])
  | some p =>
    have hnone : p.match? m.heap v = none := by
      refine Option.eq_none_iff_forall_ne_some.mpr fun bound hbound => ?_
      obtain ⟨bs, hbs, -⟩ := (Pattern.matchOnto_eq_some_iff p).mp hbound
      exact hno bs (.pattern hp hbs)
    exact congrArg (Outcome.ok · m) hnone

end Case.Matches

/-! ### Changed values -/

namespace OrderedMap

variable {α β : Type}

/-- A map made of changed values has them in the same places. -/
theorem get?_mapped (m : OrderedMap α) (f : α → β) (key : String) :
    (ofList (m.toList.map fun e => (e.1, f e.2))).get? key = (m.get? key).map f := by
  have hkeys : ((m.toList.map fun e => (e.1, f e.2)).map Prod.fst).Nodup := by
    simpa [Function.comp_def, keys] using m.nodup_keys
  refine Option.ext fun b => ?_
  rw [get?_eq_some_iff, toList_ofList, Entries.ofList_of_nodup hkeys,
    Option.map_eq_some_iff]
  simp only [List.mem_map, Prod.mk.injEq, get?_eq_some_iff]
  constructor
  · rintro ⟨⟨_, a⟩, ha, rfl, rfl⟩
    exact ⟨a, ha, rfl⟩
  · rintro ⟨a, ha, rfl⟩
    exact ⟨(key, a), ha, rfl, rfl⟩

end OrderedMap

/-! ### The scope of a case -/

namespace Scope

/-- The scope with one more name. -/
def declaring (s : Scope) (name : String) (v : Value) : Scope :=
  { s with vars := s.vars.insert name ⟨v, .let⟩ }

/-- The scope with more names. -/
def declaringAll (s : Scope) (entries : List (String × Value)) : Scope :=
  { s with vars := s.vars.insertAll (entries.map fun e => (e.1, ⟨e.2, .let⟩)) }

end Scope

namespace Machine

variable {m : Machine} {s : Scope} {bs : List (String × Value)}

/-- The machine with a scope more. -/
def withScope (m : Machine) (s : Scope) : Machine :=
  { m with scopes := ⟨m.scopes.table.push s⟩ }

/-- The machine with a new block inside of the current scope, in which names have values. -/
def withCase (m : Machine) (bs : List (String × Value)) : Machine :=
  let block : Scope := { parent := some m.context.scope, role := .block }
  m.withScope (block.declaringAll (OrderedMap.ofList bs).toList)

/-- The machine in such a block. -/
def inCase (m : Machine) (bs : List (String × Value)) : Machine :=
  (m.withCase bs).inContext (m.context.atScope m.scopes.table.size)

theorem get_withScope (m : Machine) (s : Scope) :
    (m.withScope s).scopes.get m.scopes.table.size = s := by
  simp [withScope, Scopes.get]

theorem get_withScope_of_lt {id : ScopeId} (hid : id < m.scopes.table.size) :
    (m.withScope s).scopes.get id = m.scopes.get id := by
  simp [withScope, Scopes.get, Array.getElem?_push_lt, hid]

/-- A binding in the new scope. -/
theorem perform_withScope (m : Machine) (s : Scope) (name : String) (v : Value) :
    (m.withScope s).perform (.bind m.scopes.table.size name ⟨v, .let⟩) =
      m.withScope (s.declaring name v) := by
  refine congrArg (fun table => { m with scopes := ⟨table⟩ }) (Array.ext_getElem? fun i => ?_)
  simp only [withScope, Array.getElem?_modify, Array.getElem?_push]
  by_cases hi : i = m.scopes.table.size
  · simp [hi, Scope.declaring]
  · simp [hi, Ne.symm hi]

/-- **Opens.** The first machine becomes the second one when the scope of a case is opened, which is
a new block inside of the current scope. It has exactly the names of the case, each with the
rightmost value that it stands for. -/
structure Opens (m : Machine) (case : Case) (bs : List (String × Value)) (m' : Machine) : Prop where
  context : m'.context = m.context.atScope m.scopes.table.size
  heap : m'.heap = m.heap
  size : m'.scopes.table.size = m.scopes.table.size + 1
  others : ∀ id < m.scopes.table.size, m'.scopes.get id = m.scopes.get id
  parent : (m'.scopes.get m.scopes.table.size).parent = some m.context.scope
  role : (m'.scopes.get m.scopes.table.size).role = .block
  names : ∀ name, (m'.scopes.own? m.scopes.table.size name).isSome ↔ name ∈ case.names
  last : ∀ name, m'.scopes.own? m.scopes.table.size name =
    (Entries.get? name bs.reverse).map fun v => ⟨v, .let⟩

theorem opens {case : Case} {v : Value} (hbs : case.Matches m.heap v bs) :
    m.Opens case bs (m.inCase bs) := by
  have hget : (m.inCase bs).scopes.get m.scopes.table.size = _ := m.get_withScope _
  have hlast (name : String) : (m.inCase bs).scopes.own? m.scopes.table.size name =
      (Entries.get? name bs.reverse).map fun v => ⟨v, .let⟩ := by
    rw [Scopes.own?, hget, ← OrderedMap.get?_ofList]
    exact (OrderedMap.ofList bs).get?_mapped (fun v => (⟨v, .let⟩ : Binding)) name
  refine ⟨rfl, rfl, Array.size_push _, fun id hid => get_withScope_of_lt hid,
    congrArg Scope.parent hget, congrArg Scope.role hget, fun name => ?_, hlast⟩
  rw [hlast, Option.isSome_map, Entries.isSome_get?_iff, List.map_reverse, List.mem_reverse,
    hbs.names]

end Machine

namespace Eval

variable {m : Machine}

/-- Names that are distinct can be declared one after the other in a new scope. By induction on the
names. -/
theorem defineAll_withScope {s : Scope} {entries : List (String × Value)}
    (hn : (s.vars.keys ++ entries.map Prod.fst).Nodup) (loc : Location) :
    defineAll m.scopes.table.size loc entries (m.withScope s) =
      .ok () (m.withScope (s.declaringAll entries)) := by
  induction entries generalizing s with
  | nil => rfl
  | cons e entries ih =>
    obtain ⟨name, v⟩ := e
    have hname : name ∉ s.vars.keys := fun hname =>
      List.disjoint_of_nodup_append hn hname List.mem_cons_self
    -- A name that the scope does not have can be declared.
    have hdefine : defineIn m.scopes.table.size name v .let loc (m.withScope s) =
        .ok () (m.withScope (s.declaring name v)) := by
      have hnone : s.vars.get? name = none := by
        rwa [← Option.not_isSome_iff_eq_none, OrderedMap.isSome_get?_iff]
      rw [← Machine.perform_withScope]
      refine alterScopes_of_plan ?_
      rw [Scopes.planDefine, Machine.get_withScope, hnone]
    have hkeys : (s.declaring name v).vars.keys = s.vars.keys ++ [name] := by
      simp [Scope.declaring, OrderedMap.keys, OrderedMap.toList_insert_of_not_mem hname]
    have hn' : ((s.declaring name v).vars.keys ++ entries.map Prod.fst).Nodup := by
      rw [hkeys, List.append_assoc]
      exact hn
    rw [defineAll, bind_of_ok hdefine]
    exact ih hn'

/-- **No name twice.** The names of a case are declared in its scope without a failure. -/
theorem defineAll_eq (m : Machine) (bs : List (String × Value)) (loc : Location) :
    defineAll m.scopes.table.size loc (OrderedMap.ofList bs).toList
      (m.withChild m.context.scope .block) = .ok () (m.withCase bs) := by
  let block : Scope := { parent := some m.context.scope, role := .block }
  have hn : (block.vars.keys ++ (OrderedMap.ofList bs).toList.map Prod.fst).Nodup :=
    (OrderedMap.ofList bs).nodup_keys
  exact defineAll_withScope hn loc

end Eval

/-! ### From case to case -/

namespace Outcome

variable {α β γ : Type}

/-- The end with another result. -/
def map (f : α → β) : Outcome α → Outcome β
  | .ok a m => .ok (f a) m
  | .error d m => .error d m
  | .halt r m => .halt r m

@[simp] theorem map_id (o : Outcome α) : o.map id = o := by
  cases o <;> rfl

theorem backIn_map_some_ne (o : Outcome α) (c : Context) (m : Machine) :
    (o.map some).backIn c ≠ .ok none m := by
  cases o <;> exact nofun

theorem map_apply (f : α → β) (x : Eval α) (m : Machine) : (f <$> x) m = (x m).map f := by
  cases h : x m with
  | ok a n => exact bind_of_ok h
  | error d n => exact bind_of_error h
  | halt r n => exact bind_of_halt h

/-- A computation that ends as another one did goes on with its result. -/
theorem bind_backIn {x : Eval β} {m : Machine} {o : Outcome α} {f : α → β} {c : Context}
    (h : x m = (o.map f).backIn c) {k : β → Eval γ} {g : α → γ} (hk : ∀ a, k (f a) = pure (g a)) :
    (x >>= k) m = (o.map g).backIn c := by
  cases o with
  | ok a n =>
    refine (bind_of_ok h).trans ?_
    rw [hk]
    rfl
  | error d n => exact bind_of_error h
  | halt r n => exact bind_of_halt h

end Outcome

/-- **Passes.** None of the cases is run, one after the other: the pattern does not match, or it
does and the condition does not hold. Then the scope of the case is left behind, and the next case
starts in the context of the match. -/
inductive Eval.Passes (ev : Evaluator) (v : Value) :
    List Case → Machine → List ScopeId → Machine → Prop
  | nil (m : Machine) : Passes ev v [] m [] m
  | mismatch {case : Case} {cases : List Case} {m m' : Machine} {behind : List ScopeId}
    (hno : ∀ bs, ¬ case.Matches m.heap v bs) (hrest : Passes ev v cases m behind m') :
    Passes ev v (case :: cases) m behind m'
  | refused {case : Case} {cases : List Case} {bs : List (String × Value)} {m m₁ m' : Machine}
    {behind : List ScopeId} (hbs : case.Matches m.heap v bs)
    (hcond : holds ev case.guard? (m.inCase bs) = .ok false m₁)
    (hrest : Passes ev v cases (m₁.inContext m.context) behind m') :
    Passes ev v (case :: cases) m (m.scopes.table.size :: behind) m'

/-- **Reaches.** The cases before `case` are passed, and its pattern matches in the machine `n`. -/
structure Eval.Reaches (ev : Evaluator) (v : Value) (cases : List Case) (m : Machine) (case : Case)
    (after : List Case) (bs : List (String × Value)) (n : Machine) : Prop where
  passes : ∃ before behind, cases = before ++ case :: after ∧ Passes ev v before m behind n
  pattern : case.Matches n.heap v bs

/-- **Chooses.** The ways in which a match on a value ends. Either all cases are passed, and it
fails. Or a case is reached whose condition holds, and its body runs in its scope; or whose
condition has no result. -/
inductive Eval.Chooses (ev : Evaluator) (v : Value) (loc : Location) (cases : List Case)
    (m : Machine) : Outcome Flow → Prop
  | none {behind : List ScopeId} {n : Machine} (hpass : Passes ev v cases m behind n) :
    Chooses ev v loc cases m (fail (.noCase (n.heap.print v)) loc n)
  | body {case : Case} {after : List Case} {bs : List (String × Value)} {n n₁ : Machine}
    (hreach : Reaches ev v cases m case after bs n)
    (hcond : holds ev case.guard? (n.inCase bs) = .ok true n₁) :
    Chooses ev v loc cases m ((runStatements ev case.body n₁).backIn m.context)
  | error {case : Case} {after : List Case} {bs : List (String × Value)} {n n₁ : Machine}
    {d : Diagnostic} (hreach : Reaches ev v cases m case after bs n)
    (hcond : holds ev case.guard? (n.inCase bs) = .error d n₁) :
    Chooses ev v loc cases m (.error d (n₁.inContext m.context))
  | halt {case : Case} {after : List Case} {bs : List (String × Value)} {n n₁ : Machine} {r : Halt}
    (hreach : Reaches ev v cases m case after bs n)
    (hcond : holds ev case.guard? (n.inCase bs) = .halt r n₁) :
    Chooses ev v loc cases m (.halt r n₁)

namespace Eval

variable {ev : Evaluator} {v : Value} {case : Case} {cases before after : List Case}
  {m m' : Machine} {bs : List (String × Value)} {behind : List ScopeId} {loc : Location}

/-- The first case is passed over where its pattern does not match. -/
theorem firstCase_mismatch (hno : ∀ bs, ¬ case.Matches m.heap v bs) (cases : List Case) :
    firstCase ev v (case :: cases) m = firstCase ev v cases m := by
  obtain ⟨pattern, guard, body, loc⟩ := case
  have hnames : caseNames v pattern m = .ok none m := Case.Matches.caseNames_none hno
  rw [firstCase]
  exact bind_of_ok hnames

/-- The condition of a case is computed in its scope, and so does its body run there. -/
theorem runCase_withCase (hev : Discipline.frames.Evaluates ev) (guard : Option Expr)
    (body : List Stmt) (m : Machine) (bs : List (String × Value)) :
    runCase ev m.scopes.table.size guard body (m.withCase bs) =
      ((do if ← holds ev guard then some <$> runStatements ev body else return none :
        Eval (Option Flow)) (m.inCase bs)).backIn m.context := by
  have hD := Discipline.frames_oblivious.toLawful
  have hobeys : Discipline.frames.Obeys m.context (some m.scopes.table.size)
      (runCase ev m.scopes.table.size guard body) :=
    Discipline.obeys_runCase hD hev (fun _ _ => trivial) _ guard
  exact inContext_eq_backIn (hobeys.ends (m.withCase bs) rfl)

/-- The flow of a case that was run, or else what the cases after it give. -/
def orCases (ev : Evaluator) (v : Value) (cases : List Case) : Option Flow → Eval (Option Flow)
  | some flow => pure (some flow)
  | none => firstCase ev v cases

/-- What follows the condition of a case: its body in its scope, or the cases after it in the
context of the match. -/
def afterCondition (ev : Evaluator) (v : Value) (body : List Stmt) (cases : List Case)
    (c : Context) : Outcome Bool → Outcome (Option Flow)
  | .ok true n => ((runStatements ev body n).map some).backIn c
  | .ok false n => firstCase ev v cases (n.inContext c)
  | .error d n => .error d (n.inContext c)
  | .halt r n => .halt r n

/-- A case whose pattern matches computes its condition in its scope, and goes on from there. -/
theorem firstCase_match (hev : Discipline.frames.Evaluates ev)
    (hbs : case.Matches m.heap v bs) (cases : List Case) :
    firstCase ev v (case :: cases) m =
      afterCondition ev v case.body cases m.context (holds ev case.guard? (m.inCase bs)) := by
  obtain ⟨pattern, guard, body, loc⟩ := case
  have hnames : caseNames v pattern m = _ := hbs.caseNames
  have hrun := runCase_withCase hev guard body m bs
  have hfirst : firstCase ev v (.mk pattern guard body loc :: cases) m =
      (runCase ev m.scopes.table.size guard body >>= orCases ev v cases) (m.withCase bs) := by
    rw [firstCase]
    refine (bind_of_ok hnames).trans ?_
    exact bind_of_ok (defineAll_eq m bs loc)
  -- The names of the case are bound; what happens then is decided by its condition.
  rw [hfirst]
  dsimp only [Case.guard?, Case.body]
  cases hcond : holds ev guard (m.inCase bs) with
  | error d n =>
    rw [bind_of_error hcond] at hrun
    exact bind_of_error hrun
  | halt r n =>
    rw [bind_of_halt hcond] at hrun
    exact bind_of_halt hrun
  | ok goesOn n =>
    rw [bind_of_ok hcond] at hrun
    cases goesOn with
    | false => exact bind_of_ok hrun
    | true =>
      rw [if_pos rfl, Outcome.map_apply] at hrun
      exact Outcome.bind_backIn hrun fun _ => rfl

/-- From cases that are passed, it goes on with the others. -/
theorem Passes.firstCase_append (hev : Discipline.frames.Evaluates ev)
    (h : Passes ev v before m behind m') (after : List Case) :
    firstCase ev v (before ++ after) m = firstCase ev v after m' := by
  induction h with
  | nil => rfl
  | mismatch hno _ ih =>
    rw [List.cons_append, firstCase_mismatch hno]
    exact ih
  | refused hbs hcond _ ih =>
    rw [List.cons_append, firstCase_match hev hbs, hcond]
    exact ih

/-- The next case starts in the context of the match. -/
theorem Passes.context_eq (h : Passes ev v cases m behind m') : m'.context = m.context := by
  induction h with
  | nil => rfl
  | mismatch _ _ ih => exact ih
  | refused _ _ _ ih => exact ih

/-! What is reached from later cases is reached from a case before them that is passed. -/

theorem Reaches.of_mismatch {first : Case} {n : Machine}
    (hno : ∀ bs, ¬ first.Matches m.heap v bs) (h : Reaches ev v cases m case after bs n) :
    Reaches ev v (first :: cases) m case after bs n := by
  obtain ⟨⟨before, behind, rfl, hpass⟩, hbs⟩ := h
  exact ⟨⟨first :: before, behind, rfl, .mismatch hno hpass⟩, hbs⟩

theorem Reaches.of_refused {first : Case} {bs' : List (String × Value)} {n n₁ : Machine}
    (hbs' : first.Matches m.heap v bs')
    (hcond : holds ev first.guard? (m.inCase bs') = .ok false n₁)
    (h : Reaches ev v cases (n₁.inContext m.context) case after bs n) :
    Reaches ev v (first :: cases) m case after bs n := by
  obtain ⟨⟨before, behind, rfl, hpass⟩, hbs⟩ := h
  exact ⟨⟨first :: before, _, rfl, .refused hbs' hcond hpass⟩, hbs⟩

/-- All cases are passed, or one is reached whose condition does not fail. By induction on the
cases. -/
theorem exists_passes (ev : Evaluator) (v : Value) (cases : List Case) (m : Machine) :
    (∃ behind n, Passes ev v cases m behind n) ∨
      ∃ case after bs n, Reaches ev v cases m case after bs n ∧
        ∀ n₁, holds ev case.guard? (n.inCase bs) ≠ .ok false n₁ := by
  induction cases generalizing m with
  | nil => exact .inl ⟨[], m, .nil m⟩
  | cons first cases ih =>
    by_cases hno : ∀ bs, ¬ first.Matches m.heap v bs
    · obtain ⟨behind, n, hpass⟩ | ⟨case, after, bs, n, hreach, hfound⟩ := ih m
      · exact .inl ⟨behind, n, .mismatch hno hpass⟩
      · exact .inr ⟨case, after, bs, n, hreach.of_mismatch hno, hfound⟩
    · -- The pattern of the first case matches, so all depends on its condition.
      obtain ⟨bs, hbs⟩ := not_forall_not.mp hno
      by_cases hcond : ∃ n₁, holds ev first.guard? (m.inCase bs) = .ok false n₁
      · obtain ⟨n₁, hcond⟩ := hcond
        obtain ⟨behind, n, hpass⟩ | ⟨case, after, bs', n, hreach, hfound⟩ :=
          ih (n₁.inContext m.context)
        · exact .inl ⟨_, n, .refused hbs hcond hpass⟩
        · exact .inr ⟨case, after, bs', n, hreach.of_refused hbs hcond, hfound⟩
      · exact .inr ⟨first, cases, bs, m, ⟨⟨[], [], rfl, .nil m⟩, hbs⟩, not_exists.mp hcond⟩

/-- A match on a value ends in one of the ways. -/
theorem exists_chooses (ev : Evaluator) (v : Value) (loc : Location) (cases : List Case)
    (m : Machine) : ∃ o, Chooses ev v loc cases m o := by
  obtain ⟨behind, n, hpass⟩ | ⟨case, after, bs, n, hreach, hcond⟩ := exists_passes ev v cases m
  · exact ⟨_, .none hpass⟩
  · cases e : holds ev case.guard? (n.inCase bs) with
    | ok goesOn n₁ =>
      cases goesOn with
      | false => exact absurd e (hcond n₁)
      | true => exact ⟨_, .body hreach e⟩
    | error d n₁ => exact ⟨_, .error hreach e⟩
    | halt r n₁ => exact ⟨_, .halt hreach e⟩

/-- Where all cases are passed, none is run. -/
theorem Passes.firstCase_eq (hev : Discipline.frames.Evaluates ev)
    (h : Passes ev v cases m behind m') : firstCase ev v cases m = .ok none m' := by
  have hfirst := h.firstCase_append hev []
  rwa [List.append_nil] at hfirst

/-- What happens at a case that is reached. -/
theorem Reaches.firstCase_eq (hev : Discipline.frames.Evaluates ev)
    (h : Reaches ev v cases m case after bs m') : firstCase ev v cases m =
      afterCondition ev v case.body after m.context (holds ev case.guard? (m'.inCase bs)) := by
  obtain ⟨⟨before, behind, rfl, hpass⟩, hbs⟩ := h
  rw [hpass.firstCase_append hev, firstCase_match hev hbs, hpass.context_eq]

/-- What a match makes of what its cases gave. -/
def settled (v : Value) (loc : Location) : Option Flow → Eval Flow
  | some flow => pure flow
  | none => do fail (.noCase (← print v)) loc

/-- A match ends in no other way. -/
theorem Chooses.firstCase_settled (hev : Discipline.frames.Evaluates ev) {o : Outcome Flow}
    (h : Chooses ev v loc cases m o) : (firstCase ev v cases >>= settled v loc) m = o := by
  cases h with
  | none hpass =>
    refine (bind_of_ok (hpass.firstCase_eq hev)).trans ?_
    exact bind_of_ok (print_eq v _)
  | body hreach hcond =>
    have hfirst := hreach.firstCase_eq hev
    rw [hcond] at hfirst
    have hrun := Outcome.bind_backIn hfirst (k := settled v loc) (g := id) fun _ => rfl
    rwa [Outcome.map_id] at hrun
  | error hreach hcond =>
    have hfirst := hreach.firstCase_eq hev
    rw [hcond] at hfirst
    exact bind_of_error hfirst
  | halt hreach hcond =>
    have hfirst := hreach.firstCase_eq hev
    rw [hcond] at hfirst
    exact bind_of_halt hfirst

/-- No case is run exactly if all are passed. -/
theorem firstCase_none_iff (hev : Discipline.frames.Evaluates ev) {n : Machine} :
    firstCase ev v cases m = .ok none n ↔ ∃ behind, Passes ev v cases m behind n := by
  constructor
  · -- A case whose condition is not refused is run, or ends the match with an error or a halt.
    intro h
    obtain ⟨behind, n', hpass⟩ | ⟨case, after, bs, n', hreach, hcond⟩ := exists_passes ev v cases m
    · rw [hpass.firstCase_eq hev] at h
      cases h
      exact ⟨behind, hpass⟩
    · rw [hreach.firstCase_eq hev] at h
      cases e : holds ev case.guard? (n'.inCase bs) with
      | ok goesOn n₁ =>
        rw [e] at h
        cases goesOn with
        | false => exact absurd e (hcond n₁)
        | true => exact (Outcome.backIn_map_some_ne _ _ _ h).elim
      | error d n₁ =>
        rw [e] at h
        cases h
      | halt r n₁ =>
        rw [e] at h
        cases h
  · rintro ⟨behind, hpass⟩
    exact hpass.firstCase_eq hev

end Eval

/-! ### Scopes that are left behind -/

/-- **Hides.** No search for a name that starts in one scope finds it in the other. -/
def Scopes.Hides (t : Scopes) (id s : ScopeId) : Prop :=
  ∀ name b, t.find? name id ≠ some (s, b) ∧ t.findInFile? name id ≠ some (s, b)

theorem Scopes.hides_of_not_descends {t : Scopes} {id s : ScopeId} (h : ¬ t.Descends id s) :
    t.Hides id s :=
  fun _ _ =>
    ⟨fun hfound => h (find?_descends hfound), fun hfound => h (findInFile?_descends hfound)⟩

/-- **Leaves behind.** Between the machines, scopes were made that nobody sees: no search that
starts in the current scope comes to one of them, nor does one that starts inside of another child
of the current scope, now or later. The other scopes have the names from before. -/
structure Machine.LeavesBehind (m : Machine) (behind : List ScopeId) (m' : Machine) : Prop where
  context : m'.context = m.context
  framed : m.scopes.Frames none m'.scopes
  new : ∀ s ∈ behind, m.scopes.table.size ≤ s ∧ s < m'.scopes.table.size
  current : ∀ s ∈ behind, ∀ t : Scopes, t.Hides m.context.scope s
  inner : ∀ s ∈ behind, ∀ t, m'.scopes.Extends t → ∀ k, k ≠ s →
    (t.get k).parent = some m.context.scope → m.context.scope < k →
      ∀ id, t.Descends id k → t.Hides id s

/-- A new scope frames the old ones. -/
theorem Machine.Opens.frames {m m' : Machine} {case : Case} {bs : List (String × Value)}
    (h : m.Opens case bs m') : m.scopes.Frames none m'.scopes := by
  refine ⟨by simp [h.size], fun id hid _ _ => ?_⟩
  rw [h.others id hid]

/-- A condition frames all scopes. -/
theorem Eval.frames_holds {ev : Evaluator} (hev : Discipline.frames.Evaluates ev)
    {guard : Option Expr} {m m' : Machine} {b : Bool} (h : holds ev guard m = .ok b m') :
    m.scopes.Frames none m'.scopes := by
  have hends := (Discipline.obeys_holds Discipline.frames_oblivious.toLawful hev guard).ends m rfl
  rw [h] at hends
  exact hends.2

namespace Eval.Passes

variable {ev : Evaluator} {v : Value} {cases : List Case} {m m' : Machine} {behind : List ScopeId}

theorem frames (hev : Discipline.frames.Evaluates ev) (h : Passes ev v cases m behind m') :
    m.scopes.Frames none m'.scopes := by
  induction h with
  | nil => exact .refl ..
  | mismatch _ _ ih => exact ih
  | refused hbs hcond _ ih =>
    exact (Machine.opens hbs).frames.trans ((frames_holds hev hcond).trans ih)

/-- The scopes that are left behind are new children of the current scope. -/
theorem children (hev : Discipline.frames.Evaluates ev) (h : Passes ev v cases m behind m')
    (hm : m.context.scope < m.scopes.table.size) : ∀ s ∈ behind, m.scopes.table.size ≤ s ∧
      s < m'.scopes.table.size ∧ (m'.scopes.get s).parent = some m.context.scope := by
  induction h with
  | nil => exact List.forall_mem_nil _
  | mismatch _ _ ih => exact ih hm
  | @refused case cases bs m m₁ behind m' hbs hcond hrest ih =>
    have hopens := Machine.opens hbs
    have hcond := frames_holds hev hcond
    have hframes := hrest.frames hev
    have hlt : m.scopes.table.size < m₁.scopes.table.size :=
      Nat.lt_of_lt_of_le (hopens.size ▸ Nat.lt_succ_self _) hcond.1
    refine List.forall_mem_cons.mpr ⟨⟨Nat.le_refl _, ?_, ?_⟩, fun s hs => ?_⟩
    · exact Nat.lt_of_lt_of_le hlt hframes.1
    · -- A scope keeps its parent from then on.
      have hframe := (hcond.trans hframes).2 m.scopes.table.size
        (hopens.size ▸ Nat.lt_succ_self _) (Nat.ne_of_gt (Nat.zero_lt_of_lt hm)) nofun
      exact hframe.parent.trans hopens.parent
    · obtain ⟨hle, hs⟩ := ih (Nat.lt_trans hm hlt) s hs
      exact ⟨Nat.le_trans (Nat.le_of_lt hlt) hle, hs⟩

/-- **Left behind.** Nobody sees the scopes of cases that are passed. -/
theorem leavesBehind (hev : Discipline.frames.Evaluates ev) (h : Passes ev v cases m behind m')
    (hm : m.context.scope < m.scopes.table.size) : m.LeavesBehind behind m' := by
  have hchildren := h.children hev hm
  refine ⟨h.context_eq, h.frames hev, fun s hs => ?_, fun s hs t => ?_,
    fun s hs t ht k hk hparent hlt id hid => ?_⟩
  · exact ⟨(hchildren s hs).1, (hchildren s hs).2.1⟩
  -- Outward of the current scope are older scopes.
  · have hle := (hchildren s hs).1
    exact Scopes.hides_of_not_descends fun hd => Nat.not_le_of_lt (Nat.lt_of_lt_of_le hm hle) hd.le
  -- No scope is inside of two children.
  · obtain ⟨hle, hsize, hp⟩ := hchildren s hs
    have hps := (ht.parent s hsize).trans hp
    exact Scopes.hides_of_not_descends fun hd =>
      hk (Scopes.Descends.eq_of_siblings hparent hps hlt (Nat.lt_of_lt_of_le hm hle) hid hd)

end Eval.Passes

/-! ### The main statement -/

/-- **A match runs the first case.** It computes its expression once. If that gives a value, the
match chooses among the cases in order. It fails with the code for want of a case exactly if all
cases are passed. The scope of a case whose pattern matches is opened without a failure and has
exactly the names of the case, and the scopes of cases that are passed are left behind. -/
theorem match_runs_first_case (n : Nat) (loc : Location) (e : Expr) (cases : List Case)
    {m₀ : Machine} (hm : m₀.context.scope < m₀.scopes.table.size) :
    let ev := Evaluator.ofBound n
    let run := Eval.statement ev (.choose loc e cases) m₀
    match ev.expr e m₀ with
    | .error d m => run = .error d m
    | .halt r m => run = .halt r m
    | .ok v m =>
      (∀ o, run = o ↔ Eval.Chooses ev v e.location cases m o) ∧
      (∀ m', Eval.firstCase ev v cases m = .ok none m' ↔
        ∃ behind, Eval.Passes ev v cases m behind m') ∧
      (∀ {behind m'}, Eval.Passes ev v cases m behind m' →
        ∃ d, run = .error d m' ∧ d.code = "MATCH001") ∧
      ∀ {before after behind m'}, cases = before ++ after →
        Eval.Passes ev v before m behind m' → m.LeavesBehind behind m' ∧
          ∀ {case bs}, case.Matches m'.heap v bs → m'.Opens case bs (m'.inCase bs) ∧
            Eval.defineAll m'.scopes.table.size case.location (OrderedMap.ofList bs).toList
              (m'.withChild m'.context.scope .block) = .ok () (m'.withCase bs) := by
  intro ev run
  have hev := Discipline.evaluates_ofBound Discipline.frames_oblivious.toLawful
    Discipline.frames_oblivious.imports n
  cases hv : ev.expr e m₀ with
  | error d m => exact bind_of_error hv
  | halt r m => exact bind_of_halt hv
  | ok v m =>
    have hends := (hev.expr m₀.context e).ends m₀ rfl
    rw [hv] at hends
    have hm' : m.context.scope < m.scopes.table.size := by
      rw [hends.1]
      exact Nat.lt_of_lt_of_le hm hends.2.1
    have hrun : run = (firstCase ev v cases >>= settled v e.location) m := bind_of_ok hv
    have hchooses {o : Outcome Flow} (h : Chooses ev v e.location cases m o) : run = o :=
      hrun.trans (h.firstCase_settled hev)
    -- Some choice is made in any case, so the outcome of the run is an outcome of the choice.
    refine ⟨fun o => ⟨fun ho => ?_, hchooses⟩, fun m' => firstCase_none_iff hev,
      fun hpass => ⟨_, hchooses (.none hpass), rfl⟩, fun _ hpass => ⟨hpass.leavesBehind hev hm',
        fun hbs => ⟨Machine.opens hbs, defineAll_eq _ _ _⟩⟩⟩
    obtain ⟨o', ho'⟩ := exists_chooses ev v e.location cases m
    rwa [← ho, hchooses ho']

/-- The case `[x, x]`, whose name stands for null in its condition, is passed over. -/
theorem match_runs_first_case_repeated :
    ∃ e case v m m',
      ({} : Machine).context.scope < ({} : Machine).scopes.table.size ∧
      (Evaluator.ofBound 2).expr e {} = .ok v m ∧
      Eval.Passes (.ofBound 2) v [case] m [1] m' ∧ m.LeavesBehind [1] m' ∧
      (m.inCase [("x", .bool true), ("x", .null)]).scopes.own? 1 "x" = some ⟨.null, .let⟩ ∧
      ∃ d, Eval.statement (.ofBound 2) (.choose default e [case]) {} = .error d m' ∧
        d.code = "MATCH001" := by
  let ev := Evaluator.ofBound 2
  let e : Expr := .array default
    [.item (.literal default (.boolean true)), .item (.literal default .null)]
  let case : Case := .mk (some (.array [.bind "x", .bind "x"])) (some (.ident default "x")) []
    default
  let m : Machine := { heap := (Heap.empty.allocArray #[.bool true, .null]).2 }
  let bs : List (String × Value) := [("x", .bool true), ("x", .null)]
  have hm : ({} : Machine).context.scope < ({} : Machine).scopes.table.size := by decide
  have hv : ev.expr e {} = .ok (.array 0) m := by cbv
  have hbs : case.Matches m.heap (.array 0) bs :=
    .pattern rfl (.array (.cons (.bind "x" _) (.cons (.bind "x" _) .nil)))
  have hholds := Outcome.eq_of_result? (o := holds ev case.guard? (m.inCase bs)) (a := false)
    (by cbv)
  have hmatch := match_runs_first_case 2 default e [case] hm
  simp only [show (Evaluator.ofBound 2).expr e {} = .ok (.array 0) m from hv] at hmatch
  obtain ⟨-, -, hfails, hpassed⟩ := hmatch
  have hpass : Passes ev (.array 0) [case] m [1] (_ : Machine) := .refused hbs hholds (.nil _)
  have hopens := ((hpassed rfl (.nil m)).2 hbs).1
  exact ⟨e, case, .array 0, m, _, hm, hv, hpass, (hpassed (List.append_nil _).symm hpass).1,
    hopens.last "x", hfails hpass⟩

end ScriptLang
