import ScriptLang.Proofs.LocatedTrees

/-!
# What is in a tree is smaller

Expressions, functions and statements contain each other, with lists and options of them in between.
What is directly inside one of them is smaller than it is, so something that is inherited from all
that is directly inside holds of every tree.

The lemmas follow `Expr.parts`, `Stmt.inside` and the other ways in of `Proofs.StatementParts`.
`Expr.located_of_forall` is an instance: where every location is of a kind, so are those in every
tree.
-/

namespace ScriptLang

/-! ### Expressions -/

theorem Element.sizeOf_of_mem {e : Expr} {items : List Element}
    (h : e ∈ items.map Element.value) : sizeOf e < sizeOf items := by
  obtain ⟨i, hi, rfl⟩ := List.mem_map.mp h
  have hitem : sizeOf i.value < sizeOf i := by cases i <;> simp [value]
  exact Nat.lt_trans hitem (List.sizeOf_lt_of_mem hi)

theorem Entry.sizeOf_of_mem {e : Expr} {entries : List Entry}
    (h : e ∈ entries.map Entry.value) : sizeOf e < sizeOf entries := by
  obtain ⟨i, hi, rfl⟩ := List.mem_map.mp h
  have hentry : sizeOf i.value < sizeOf i := by cases i <;> simp +arith [value]
  exact Nat.lt_trans hentry (List.sizeOf_lt_of_mem hi)

theorem Part.sizeOf_of_mem {e : Expr} {parts : List Part}
    (h : e ∈ parts.filterMap Part.value?) : sizeOf e < sizeOf parts := by
  obtain ⟨p, hp, he⟩ := List.mem_filterMap.mp h
  have hpart : sizeOf e < sizeOf p := by
    cases p with
    | text t => cases he
    | expr e' => cases he; simp
  exact Nat.lt_trans hpart (List.sizeOf_lt_of_mem hp)

theorem Expr.sizeOf_part {e e' : Expr} (h : e' ∈ e.parts) : sizeOf e' < sizeOf e := by
  cases e with
  | array _ items =>
    have := Element.sizeOf_of_mem h
    simp only [Expr.array.sizeOf_spec]
    omega
  | object _ entries =>
    have := Entry.sizeOf_of_mem h
    simp only [Expr.object.sizeOf_spec]
    omega
  | template _ ps =>
    have := Part.sizeOf_of_mem h
    simp only [Expr.template.sizeOf_spec]
    omega
  | call _ callee args _ =>
    simp only [Expr.call.sizeOf_spec]
    rcases List.mem_cons.mp h with rfl | h
    · omega
    · have := Element.sizeOf_of_mem h
      omega
  | pipe _ value callee args =>
    simp only [Expr.pipe.sizeOf_spec]
    rcases List.mem_cons.mp h with rfl | h
    · omega
    rcases List.mem_cons.mp h with rfl | h
    · omega
    · have := Element.sizeOf_of_mem h
      omega
  -- The others have a fixed number of parts, each of them a field.
  | binary | unary | property | index | inlineIf =>
    simp only [parts, List.mem_cons, List.not_mem_nil, or_false] at h
    rcases h with rfl | h
    all_goals grind
  | _ => cases h

theorem Expr.sizeOf_function {e : Expr} {fn : FunctionDef} (h : fn ∈ e.functions) :
    sizeOf fn < sizeOf e := by
  cases e with
  | function loc fn' =>
    obtain rfl := List.mem_singleton.mp h
    simp only [Expr.function.sizeOf_spec]
    omega
  | _ => cases h

/-! ### Functions -/

theorem FunctionDef.sizeOf_default {fn : FunctionDef} {e : Expr} (h : e ∈ fn.defaults) :
    sizeOf e < sizeOf fn := by
  obtain ⟨name, ps, rest, body, loc⟩ := fn
  obtain ⟨⟨pname, value⟩, hp, he⟩ := List.mem_filterMap.mp h
  obtain rfl : value = some e := he
  have hlt : sizeOf (Param.mk pname (some e)) < sizeOf ps := List.sizeOf_lt_of_mem hp
  simp only [Param.mk.sizeOf_spec, Option.some.sizeOf_spec, FunctionDef.mk.sizeOf_spec] at *
  omega

theorem FunctionDef.sizeOf_body {fn : FunctionDef} {s : Stmt} (h : s ∈ fn.body) :
    sizeOf s < sizeOf fn := by
  obtain ⟨name, ps, rest, body, loc⟩ := fn
  have hlt : sizeOf s < sizeOf body := List.sizeOf_lt_of_mem h
  simp only [FunctionDef.mk.sizeOf_spec]
  omega

/-! ### Statements -/

theorem Case.sizeOf_guard {k : Case} {e : Expr} (h : k.guard? = some e) :
    sizeOf e < sizeOf k := by
  obtain ⟨pattern, guard, body, loc⟩ := k
  obtain rfl : guard = some e := h
  simp only [Case.mk.sizeOf_spec, Option.some.sizeOf_spec]
  omega

theorem Case.sizeOf_body {k : Case} {s : Stmt} (h : s ∈ k.body) : sizeOf s < sizeOf k := by
  obtain ⟨pattern, guard, body, loc⟩ := k
  have hlt : sizeOf s < sizeOf body := List.sizeOf_lt_of_mem h
  simp only [Case.mk.sizeOf_spec]
  omega

theorem Else.sizeOf_part {no : Else} {s : Stmt} (h : s ∈ no.parts) : sizeOf s < sizeOf no := by
  cases no with
  | nothing => cases h
  | block body =>
    have hlt : sizeOf s < sizeOf body := List.sizeOf_lt_of_mem h
    simp only [Else.block.sizeOf_spec]
    omega
  | elseIf next =>
    obtain rfl := List.mem_singleton.mp h
    simp only [Else.elseIf.sizeOf_spec]
    omega

theorem Stmt.sizeOf_part {s s' : Stmt} (h : s' ∈ s.parts) : sizeOf s' < sizeOf s := by
  cases s with
  | cond loc test yes no =>
    simp only [Stmt.cond.sizeOf_spec]
    rcases List.mem_append.mp h with h | h
    · have := List.sizeOf_lt_of_mem h
      omega
    · have := Else.sizeOf_part h
      omega
  | labeled loc label body =>
    obtain rfl := List.mem_singleton.mp h
    simp only [Stmt.labeled.sizeOf_spec]
    omega
  | attempt loc body name handler =>
    simp only [Stmt.attempt.sizeOf_spec]
    rcases List.mem_append.mp h with h | h
    · have := List.sizeOf_lt_of_mem h
      omega
    · cases handler with
      | none => cases h
      | some handler =>
        have hlt : sizeOf s' < sizeOf handler := List.sizeOf_lt_of_mem h
        simp only [Option.some.sizeOf_spec]
        omega
  | choose loc e cases =>
    obtain ⟨k, hk, h⟩ := List.mem_flatMap.mp h
    have := List.sizeOf_lt_of_mem hk
    have := Case.sizeOf_body h
    simp only [Stmt.choose.sizeOf_spec]
    omega
  | guard _ _ body | whileLoop _ _ body | forEach _ _ _ body | loop _ body =>
    have hlt : sizeOf s' < sizeOf body := List.sizeOf_lt_of_mem h
    simp +arith
    omega
  | _ => cases h

/-- The statements of a loop with a label are parts of a part. -/
theorem Stmt.sizeOf_inside {s s' : Stmt} (h : s' ∈ s.inside) : sizeOf s' < sizeOf s := by
  cases s with
  | labeled loc label body =>
    have hbody : sizeOf body < sizeOf (Stmt.labeled loc label body) :=
      sizeOf_part (List.mem_singleton_self body)
    -- The statements of a loop under the label are two steps down.
    cases body with
    | whileLoop loc test b =>
      exact Nat.lt_trans (sizeOf_part (s := .whileLoop loc test b) h) hbody
    | forEach loc name e b =>
      exact Nat.lt_trans (sizeOf_part (s := .forEach loc name e b) h) hbody
    | loop loc b => exact Nat.lt_trans (sizeOf_part (s := .loop loc b) h) hbody
    | _ => exact sizeOf_part h
  | _ => exact sizeOf_part h

theorem Stmt.sizeOf_function {s : Stmt} {fn : FunctionDef} (h : fn ∈ s.functions) :
    sizeOf fn < sizeOf s := by
  cases s with
  | function loc fn' exported =>
    obtain rfl := List.mem_singleton.mp h
    simp only [Stmt.function.sizeOf_spec]
    omega
  | _ => cases h

theorem Stmt.sizeOf_expr {s : Stmt} {e : Expr} (h : e ∈ s.exprs) : sizeOf e < sizeOf s := by
  cases s with
  | call loc callee args dest =>
    simp only [Stmt.call.sizeOf_spec]
    rcases List.mem_cons.mp h with rfl | h
    · omega
    · have := Element.sizeOf_of_mem h
      omega
  | choose loc value cases =>
    simp only [Stmt.choose.sizeOf_spec]
    rcases List.mem_cons.mp h with rfl | h
    · omega
    · obtain ⟨k, hk, h⟩ := List.mem_filterMap.mp h
      have := List.sizeOf_lt_of_mem hk
      have := Case.sizeOf_guard h
      omega
  | giveBack loc value =>
    obtain rfl : value = some e := by simpa [exprs] using h
    simp only [Stmt.giveBack.sizeOf_spec, Option.some.sizeOf_spec]
    omega
  -- The condition of a loop with a label is inside the loop.
  | labeled loc label body =>
    cases body with
    | whileLoop | forEach =>
      obtain rfl := List.mem_singleton.mp h
      simp +arith
    | _ => cases h
  | setProperty | setIndex | declare | destructure | print | raise | expr | cond | guard
  | whileLoop | forEach =>
    simp only [exprs, List.mem_cons, List.not_mem_nil, or_false] at h
    grind
  | _ => cases h

/-! ### Trees with locations of any kind -/

variable {P : Location → Prop}

mutual

theorem Expr.located_of_forall (h : ∀ loc, P loc) (e : Expr) : e.Located P :=
  .intro (h _) (fun e' _ => e'.located_of_forall h) fun fn _ => fn.located_of_forall h
termination_by sizeOf e
decreasing_by
  · exact Expr.sizeOf_part ‹_›
  · exact Expr.sizeOf_function ‹_›

theorem FunctionDef.located_of_forall (h : ∀ loc, P loc) (fn : FunctionDef) : fn.Located P :=
  .intro (fun e _ => e.located_of_forall h) fun s _ => s.located_of_forall h
termination_by sizeOf fn
decreasing_by
  · exact FunctionDef.sizeOf_default ‹_›
  · exact FunctionDef.sizeOf_body ‹_›

theorem Stmt.located_of_forall (h : ∀ loc, P loc) (s : Stmt) : s.Located P :=
  .intro (fun loc _ => h loc) (fun e _ => e.located_of_forall h)
    (fun fn _ => fn.located_of_forall h) fun s' _ => s'.located_of_forall h
termination_by sizeOf s
decreasing_by
  · exact Stmt.sizeOf_expr ‹_›
  · exact Stmt.sizeOf_function ‹_›
  · exact Stmt.sizeOf_inside ‹_›

end

end ScriptLang
