import ScriptLang.Proofs.StatementParts

/-!
# Trees with locations of a kind

An error shows the location of a statement, an expression or a case, so what is known of the
locations in a program is known of its errors.

* `Expr.Located`, `Stmt.Located` and `FunctionDef.Located` say that all of these locations are of a
  kind, at every depth and also in the bodies of functions.
* `Stmt.places` are the locations of a statement and of the cases in it.
-/

namespace ScriptLang

/-- The location of a case. -/
def Case.location : Case → Location
  | .mk _ _ _ loc => loc

/-- The locations of a statement and of its cases. -/
def Stmt.places : Stmt → List Location
  | .choose loc _ cases => loc :: cases.map Case.location
  | s => [s.location]

mutual

/-- The locations in an expression are of a kind. -/
inductive Expr.Located (P : Location → Prop) : Expr → Prop
  | intro {e : Expr} (here : P e.location) (parts : ∀ e' ∈ e.parts, Expr.Located P e')
    (functions : ∀ fn ∈ e.functions, FunctionDef.Located P fn) : Expr.Located P e

/-- The locations in the defaults and the body of a function are of a kind. -/
inductive FunctionDef.Located (P : Location → Prop) : FunctionDef → Prop
  | intro {fn : FunctionDef} (defaults : ∀ e ∈ fn.defaults, Expr.Located P e)
    (body : ∀ s ∈ fn.body, Stmt.Located P s) : FunctionDef.Located P fn

/-- The locations in a statement are of a kind. -/
inductive Stmt.Located (P : Location → Prop) : Stmt → Prop
  | intro {s : Stmt} (here : ∀ loc ∈ s.places, P loc) (exprs : ∀ e ∈ s.exprs, Expr.Located P e)
    (functions : ∀ fn ∈ s.functions, FunctionDef.Located P fn)
    (inside : ∀ s' ∈ s.inside, Stmt.Located P s') : Stmt.Located P s

end

/-- The locations in a program are of a kind, its own included. -/
structure Program.Located (P : Location → Prop) (p : Program) : Prop where
  here : P p.location
  statements : ∀ s ∈ p.statements, s.Located P

variable {P : Location → Prop}

/-! What is of a kind is of any kind that says less. -/

mutual

theorem Expr.Located.mono {Q : Location → Prop} {e : Expr} (hPQ : ∀ loc, P loc → Q loc) :
    e.Located P → e.Located Q
  | .intro here parts functions =>
    .intro (hPQ _ here) (fun e' he => (parts e' he).mono hPQ)
      fun fn hfn => (functions fn hfn).mono hPQ

theorem FunctionDef.Located.mono {Q : Location → Prop} {fn : FunctionDef}
    (hPQ : ∀ loc, P loc → Q loc) : fn.Located P → fn.Located Q
  | .intro defaults body =>
    .intro (fun e he => (defaults e he).mono hPQ) fun s hs => (body s hs).mono hPQ

theorem Stmt.Located.mono {Q : Location → Prop} {s : Stmt} (hPQ : ∀ loc, P loc → Q loc) :
    s.Located P → s.Located Q
  | .intro here exprs functions inside =>
    .intro (fun loc h => hPQ loc (here loc h)) (fun e he => (exprs e he).mono hPQ)
      (fun fn hfn => (functions fn hfn).mono hPQ) fun s' hs => (inside s' hs).mono hPQ

end

theorem Program.Located.mono {Q : Location → Prop} {p : Program} (h : p.Located P)
    (hPQ : ∀ loc, P loc → Q loc) : p.Located Q :=
  ⟨hPQ _ h.here, fun s hs => (h.statements s hs).mono hPQ⟩

/-- The locations in an element of a list are of a kind. -/
def Element.Located (P : Location → Prop) (e : Element) : Prop := e.value.Located P

/-- The locations in an entry of an object are of a kind. -/
def Entry.Located (P : Location → Prop) (e : Entry) : Prop := e.value.Located P

/-- The locations in a part of a template are of a kind. -/
def Part.Located (P : Location → Prop) (p : Part) : Prop := ∀ e ∈ p.value?, e.Located P

/-- The locations in a parameter are of a kind. -/
def Param.Located (P : Location → Prop) (p : Param) : Prop := ∀ e ∈ p.default?, e.Located P

/-- The locations in a case are of a kind, its own included. -/
structure Case.Located (P : Location → Prop) (c : Case) : Prop where
  here : P c.location
  guard : ∀ e ∈ c.guard?, e.Located P
  body : ∀ s ∈ c.body, s.Located P

theorem Case.Located.mono {Q : Location → Prop} {c : Case} (h : c.Located P)
    (hPQ : ∀ loc, P loc → Q loc) : c.Located Q :=
  ⟨hPQ _ h.here, fun e he => (h.guard e he).mono hPQ, fun s hs => (h.body s hs).mono hPQ⟩

namespace Expr.Located

variable {e e' : Expr}

theorem here (h : e.Located P) : P e.location := by
  cases h
  assumption

theorem part (h : e.Located P) (he : e' ∈ e.parts) : e'.Located P := by
  obtain ⟨-, hparts, -⟩ := h
  exact hparts e' he

theorem function {fn : FunctionDef} (h : e.Located P) (hfn : fn ∈ e.functions) : fn.Located P := by
  obtain ⟨-, -, hfunctions⟩ := h
  exact hfunctions fn hfn

/-- An expression that makes no function. -/
theorem of_parts (here : P e.location) (hfn : e.functions = [])
    (parts : ∀ e' ∈ e.parts, e'.Located P) : e.Located P :=
  .intro here parts (by simp [hfn])

/-- An expression with nothing in it. -/
theorem leaf (here : P e.location) (hfn : e.functions = []) (hparts : e.parts = []) :
    e.Located P := of_parts here hfn (by simp [hparts])

theorem elements {es : List Element} (h : ∀ e ∈ es, e.Located P) :
    ∀ e' ∈ es.map Element.value, e'.Located P := by
  intro e' he'
  obtain ⟨e, he, rfl⟩ := List.mem_map.mp he'
  exact h e he

theorem array {loc : Location} {items : List Element} (here : P loc)
    (h : ∀ e ∈ items, e.Located P) : (Expr.array loc items).Located P :=
  of_parts here rfl (elements h)

theorem object {loc : Location} {entries : List Entry} (here : P loc)
    (h : ∀ e ∈ entries, e.Located P) : (Expr.object loc entries).Located P := by
  refine of_parts here rfl fun e' he' => ?_
  obtain ⟨e, he, rfl⟩ := List.mem_map.mp he'
  exact h e he

theorem template {loc : Location} {ps : List Part} (here : P loc)
    (h : ∀ p ∈ ps, p.Located P) : (Expr.template loc ps).Located P := by
  refine of_parts here rfl fun e' he' => ?_
  obtain ⟨p, hp, he⟩ := List.mem_filterMap.mp he'
  exact h p hp e' he

theorem call {loc : Location} {callee : Expr} {args : List Element} {safe : Bool} (here : P loc)
    (hc : callee.Located P) (h : ∀ e ∈ args, e.Located P) :
    (Expr.call loc callee args safe).Located P :=
  of_parts here rfl (List.forall_mem_cons.mpr ⟨hc, elements h⟩)

theorem pipe {loc : Location} {value callee : Expr} {args : List Element} (here : P loc)
    (hv : value.Located P) (hc : callee.Located P) (h : ∀ e ∈ args, e.Located P) :
    (Expr.pipe loc value callee args).Located P :=
  of_parts here rfl (List.forall_mem_cons.mpr ⟨hv, List.forall_mem_cons.mpr ⟨hc, elements h⟩⟩)

end Expr.Located

namespace FunctionDef.Located

variable {fn : FunctionDef}

theorem default {e : Expr} (h : fn.Located P) (he : e ∈ fn.defaults) : e.Located P := by
  obtain ⟨hdefaults, -⟩ := h
  exact hdefaults e he

theorem body {s : Stmt} (h : fn.Located P) (hs : s ∈ fn.body) : s.Located P := by
  obtain ⟨-, hbody⟩ := h
  exact hbody s hs

theorem of_params {name : Option String} {params : List Param} {rest : Option String}
    {body : List Stmt} {loc : Location} (hp : ∀ p ∈ params, p.Located P)
    (hb : ∀ s ∈ body, s.Located P) : (FunctionDef.mk name params rest body loc).Located P := by
  refine .intro (fun e he => ?_) hb
  obtain ⟨p, hpm, hpe⟩ := List.mem_filterMap.mp he
  exact hp p hpm e hpe

end FunctionDef.Located

namespace Stmt.Located

variable {s s' : Stmt}

theorem place {loc : Location} (h : s.Located P) (hloc : loc ∈ s.places) : P loc := by
  obtain ⟨hhere, -, -, -⟩ := h
  exact hhere loc hloc

theorem location_mem_places (s : Stmt) : s.location ∈ s.places := by
  cases s <;> simp [places, location]

theorem here (h : s.Located P) : P s.location := h.place (location_mem_places s)

theorem expr {e : Expr} (h : s.Located P) (he : e ∈ s.exprs) : e.Located P := by
  obtain ⟨-, hexprs, -, -⟩ := h
  exact hexprs e he

theorem function {fn : FunctionDef} (h : s.Located P) (hfn : fn ∈ s.functions) : fn.Located P := by
  obtain ⟨-, -, hfunctions, -⟩ := h
  exact hfunctions fn hfn

theorem inner (h : s.Located P) (hs : s' ∈ s.inside) : s'.Located P := by
  obtain ⟨-, -, -, hinside⟩ := h
  exact hinside s' hs

/-- A statement that declares no function and has no cases. -/
theorem of_parts (hplaces : s.places = [s.location]) (here : P s.location) (hfn : s.functions = [])
    (exprs : ∀ e ∈ s.exprs, e.Located P) (inside : ∀ s' ∈ s.inside, s'.Located P) :
    s.Located P :=
  .intro (by simpa [hplaces] using here) exprs (by simp [hfn]) inside

/-- A statement with nothing in it. -/
theorem leaf (hplaces : s.places = [s.location]) (here : P s.location) (hfn : s.functions = [])
    (hexprs : s.exprs = []) (hinside : s.inside = []) : s.Located P :=
  of_parts hplaces here hfn (by simp [hexprs]) (by simp [hinside])

/-- A statement with one expression in it. -/
theorem of_expr {e : Expr} (hplaces : s.places = [s.location]) (here : P s.location)
    (hfn : s.functions = []) (hexprs : s.exprs = [e]) (he : e.Located P)
    (inside : ∀ s' ∈ s.inside, s'.Located P) : s.Located P :=
  of_parts hplaces here hfn (by simp [hexprs, he]) inside

/-- A label, before a loop or another statement. What the loop runs is directly inside the labelled
statement. -/
theorem labeled {loc : Location} {label : String} (hloc : P loc) (h : s.Located P) :
    (Stmt.labeled loc label s).Located P := by
  refine .of_parts rfl hloc rfl ?_ ?_
  · intro e he
    cases s with
    | whileLoop | forEach => exact h.expr he
    | _ => cases he
  · intro s' hs'
    cases s with
    | whileLoop | forEach | loop => exact h.inner hs'
    | _ => exact List.mem_singleton.mp hs' ▸ h

end Stmt.Located

end ScriptLang
