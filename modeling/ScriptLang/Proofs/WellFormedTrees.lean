import ScriptLang.Proofs.SpansStatement

/-!
# Trees that are read are well-formed

The types of the syntax tree leave room for trees that no text has: parameters in the wrong order,
matches without cases, an `else if` in front of a loop, choices between functions in the middle of
an expression. The evaluator relies on not meeting them, and no pass checks for them.

* `Construct.WellFormed` says what is relied on, of one construct.
* `Construct.Occupies.wellFormed`: what is made of tokens in the ways that the grammar has is
  well-formed. With `Construct.Occupies.has` this reaches everything in a program.
* `trees_well_formed` is the result about programs.
-/

namespace ScriptLang

/-- The pattern of a case. -/
def Case.pattern? : Case → Option Pattern
  | .mk pattern .. => pattern

/-- A parameter with a default is followed by others with a default only. -/
def DefaultsLast (ps : List Param) : Prop :=
  ps.Pairwise fun p q => p.default?.isSome → q.default?.isSome

/-- What a call or a pipe calls is named. A pipe may also choose between two functions, and then has
no further arguments. A safe call calls any value. -/
def Expr.CallsNames : Expr → Prop
  | .call _ callee _ false => callee.isReference
  | .pipe _ _ callee args => callee.isReference ∨ callee.isChoice ∧ args = []
  | _ => True

namespace Construct

/-- **Well-formed.** What the evaluator relies on. That a choice or a member of a module stands only
where a function is named is said of the expressions that stand elsewhere. -/
def WellFormed : Construct → Prop
  | .expr e => e.isChoice = false ∧ e.isMember = false ∧ e.CallsNames
  | .callee e => e.isReference ∨ e.isChoice
  | .params defaulted ps => DefaultsLast ps ∧ (defaulted = true → ∀ p ∈ ps, p.default?.isSome)
  | .function fn => DefaultsLast fn.params
  | .stmt (.call _ target _ _) => target.isReference
  | .stmt (.choose _ _ found) => found ≠ []
  | .otherwise (.elseIf next) => next.isConditional
  | .case c => c.pattern? = none → c.guard? = none
  | _ => True

variable {place : Nat → Location} {f : Construct} {i j : Nat}

theorem Occupies.wellFormed (h : Occupies place f i j) : f.WellFormed := by
  induction h with
  | group _ ih => exact ih
  | call named => exact ⟨rfl, rfl, named⟩
  | pipe _ _ _ ih => exact ⟨rfl, rfl, ih.imp_right fun h => ⟨h, rfl⟩⟩
  | pipeCall named => exact ⟨rfl, rfl, .inl named⟩
  | reference | member => exact .inl rfl
  | choice => exact .inr rfl
  | noParams => exact ⟨.nil, fun _ => List.forall_mem_nil _⟩
  -- Nothing with a default stands before this parameter, and this one has none.
  | param _ _ ih =>
    refine ⟨.cons (fun q _ hp => ?_) ih.1, fun hd => by simp at hd⟩
    simp [Param.default?] at hp
  | defaultParam _ _ _ _ ih =>
    refine ⟨.cons (fun q hq _ => ih.2 rfl q hq) ih.1, fun _ => ?_⟩
    exact List.forall_mem_cons.mpr ⟨rfl, ih.2 rfl⟩
  | function _ _ _ _ ih => exact ih.1
  | callStatement named => exact named
  | choose some => exact some
  | elseIf conditional => exact conditional
  | defaultCase => exact fun _ => rfl
  | patternCase | guardCase => exact fun h => by simp [Case.pattern?] at h
  | _ => first | exact ⟨rfl, rfl, trivial⟩ | trivial

end Construct

/-- **Well-formed trees.** In every program that is read from a list of tokens, every construct is
well-formed, at every depth: in bodies, defaults, interpolations, arguments and everywhere else. -/
theorem trees_well_formed (platform : Platform) (tokens : List Token) (file : String)
    {p : Program} {c : Cursor} (h : Program.parse platform tokens file = .ok (p, c))
    {f : Construct} (hf : p.Has f) : f.WellFormed := by
  obtain ⟨i, j, -, -, hocc⟩ := (Program.occupies_parse h).2.has hf
  exact hocc.wellFormed

/-- A value that is handed to `g` is read as a pipe, and what it is handed to is named. -/
theorem trees_well_formed_pipe :
    ∃ at₁ at₂ at₃ value callee c, Program.parse .ample [⟨.identifier, "f", .nowhere, 1, 1, "a"⟩,
        ⟨.operator, "|>", .nowhere, 1, 2, "a"⟩, ⟨.identifier, "g", .nowhere, 1, 4, "a"⟩] "a" =
          .ok (⟨[.expr at₁ (.pipe at₂ value callee [])], at₃⟩, c) ∧
      (Construct.expr (.pipe at₂ value callee [])).WellFormed := by
  have hparse : ∃ at₁ at₂ at₃ value callee c, Program.parse .ample [
      ⟨.identifier, "f", .nowhere, 1, 1, "a"⟩, ⟨.operator, "|>", .nowhere, 1, 2, "a"⟩,
      ⟨.identifier, "g", .nowhere, 1, 4, "a"⟩] "a" =
        .ok (⟨[.expr at₁ (.pipe at₂ value callee [])], at₃⟩, c) := ⟨_, _, _, _, _, _, rfl⟩
  obtain ⟨at₁, at₂, at₃, value, callee, c, h⟩ := hparse
  have hpipe : Construct.expr (.pipe at₂ value callee []) ∈
      (Construct.stmt (.expr at₁ (.pipe at₂ value callee []))).children := List.mem_singleton_self _
  exact ⟨at₁, at₂, at₃, value, callee, c, h, trees_well_formed _ _ _ h
    ((Construct.has_of_mem List.mem_cons_self).tail hpipe)⟩

end ScriptLang
