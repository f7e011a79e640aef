import ScriptLang.Library.Sorting

/-!
# What sorting gives back

Sorting makes no elements: whatever holds of all elements of a list, and of the element that stands
in for a place that is none, holds of all elements of the sorted list (`Sorting.forall_stable`). The
comparison need not be an order. One lemma for each step of the method, all of them about a
property `P` of elements.
-/

namespace ScriptLang.Sorting

variable {α : Type} {P : α → Prop} {less : α → α → Bool}

theorem forall_insertBy {v : α} (hv : P v) {ws : List α} (hw : ∀ w ∈ ws, P w) :
    ∀ w ∈ insertBy less v ws, P w := by
  induction ws with
  | nil => simpa [insertBy] using hv
  | cons u us ih =>
    obtain ⟨hu, hus⟩ := List.forall_mem_cons.mp hw
    unfold insertBy
    split
    · exact List.forall_mem_cons.mpr ⟨hu, ih hus⟩
    · exact List.forall_mem_cons.mpr ⟨hv, hw⟩

theorem forall_insertAll {done vs : List α} (hd : ∀ w ∈ done, P w) (hv : ∀ v ∈ vs, P v) :
    ∀ w ∈ insertAll less done vs, P w := by
  unfold insertAll
  simp only [List.mem_reverse]
  induction vs generalizing done with
  | nil => exact hd
  | cons v rest ih =>
    obtain ⟨hv, hr⟩ := List.forall_mem_cons.mp hv
    exact ih (forall_insertBy hv hd) hr

theorem forall_insertion {vs : List α} (hv : ∀ v ∈ vs, P v) : ∀ w ∈ insertion less vs, P w :=
  forall_insertAll (fun _ h => nomatch h) hv

theorem forall_four {p q r s : α} (hp : P p) (hq : P q) (hr : P r) (hs : P s) :
    ∀ w ∈ four less p q r s, P w := by
  have hpair {x y : α} (hx : P x) (hy : P y) (c : Bool) :
      P (if c then (y, x) else (x, y)).1 ∧ P (if c then (y, x) else (x, y)).2 := by
    cases c <;> exact ⟨‹_›, ‹_›⟩
  have hlow := hpair hp hq (less q p)
  have hhigh := hpair hr hs (less s r)
  unfold four
  generalize (if less q p then (q, p) else (p, q)) = low at hlow ⊢
  generalize (if less s r then (s, r) else (r, s)) = high at hhigh ⊢
  obtain ⟨ha, hb⟩ := hlow
  obtain ⟨hc, hd⟩ := hhigh
  -- Each of the four places takes one of the four elements, whichever it is.
  dsimp only
  split <;> split <;> split <;> simp [*]

theorem forall_half (byFour : Bool) {vs : List α} (hv : ∀ v ∈ vs, P v) :
    ∀ w ∈ half less byFour vs, P w := by
  unfold half
  split
  · simp only [List.forall_mem_cons] at hv
    obtain ⟨hp, hq, hr, hs, hrest⟩ := hv
    exact forall_insertAll (by simpa using forall_four hp hq hr hs) hrest
  · exact forall_insertion hv

/-! ### Short stretches -/

theorem forall_getD [Inhabited α] (hd : P default) {vs : Array α} (hv : ∀ v ∈ vs, P v) (i : Nat) :
    P (vs.getD i default) := by
  unfold Array.getD
  split
  · exact hv _ (Array.getElem_mem _)
  · exact hd

theorem forall_mergeEnds [Inhabited α] (hd : P default) {vs : Array α} (hv : ∀ v ∈ vs, P v)
    {n : Nat} {e : Ends} {front back ws : List α} (hf : ∀ w ∈ front, P w) (hb : ∀ w ∈ back, P w)
    (h : mergeEnds less vs n e front back = some ws) : ∀ w ∈ ws, P w := by
  -- On the number of steps: each takes one element from either end.
  induction n generalizing e front back with
  | zero =>
    simp only [mergeEnds, Option.ite_none_right_eq_some, Option.some.injEq] at h
    obtain ⟨-, rfl⟩ := h
    simp only [List.mem_append, List.mem_reverse]
    rintro w ((hw | hw) | hw)
    · exact hf w hw
    · split at hw
      · obtain rfl := List.mem_singleton.mp hw
        exact forall_getD hd hv _
      · cases hw
    · exact hb w hw
  | succ n ih =>
    exact ih (List.forall_mem_cons.mpr ⟨forall_getD hd hv _, hf⟩)
      (List.forall_mem_cons.mpr ⟨forall_getD hd hv _, hb⟩) h

theorem forall_small [Inhabited α] (hd : P default) {vs ws : List α} (hv : ∀ v ∈ vs, P v)
    (h : small less vs = some ws) : ∀ w ∈ ws, P w := by
  unfold small at h
  split at h
  · cases h
    exact hv
  · refine forall_mergeEnds hd (fun v hv' => ?_) (List.forall_mem_nil P) (List.forall_mem_nil P) h
    rcases List.mem_append.mp (List.mem_toArray.mp hv') with h' | h'
    · exact forall_half _ (fun u hu => hv u (List.mem_of_mem_take hu)) v h'
    · exact forall_half _ (fun u hu => hv u (List.mem_of_mem_drop hu)) v h'

/-! ### Division by pivots -/

theorem forall_divide {goesLeft : α → Bool} {place : Nat} {pivotLeft : Bool} {vs : List α}
    (hv : ∀ v ∈ vs, P v) :
    (∀ w ∈ (divide goesLeft place pivotLeft vs).1, P w) ∧
      ∀ w ∈ (divide goesLeft place pivotLeft vs).2, P w := by
  -- The elements are marked where they stand, and a mark changes none.
  have hmarked : ∀ p ∈ vs.zipIdx.map
      (fun p => (p.1, if p.2 = place then pivotLeft else goesLeft p.1)), P p.1 := by
    intro p hp
    obtain ⟨⟨v, i⟩, hvi, rfl⟩ := List.mem_map.mp hp
    exact hv v (List.fst_mem_of_mem_zipIdx hvi)
  refine ⟨fun w hw => ?_, fun w hw => ?_⟩ <;>
  · obtain ⟨p, hp, rfl⟩ := List.mem_map.mp hw
    exact hmarked p (List.mem_filter.mp hp).1

theorem forall_quick [Inhabited α] (hd : P default) {fallback : List α → Option (List α)}
    (hfall : ∀ us ws, (∀ u ∈ us, P u) → fallback us = some ws → ∀ w ∈ ws, P w)
    {steps limit : Nat} {ancestor : Option α} {vs ws : List α} (hv : ∀ v ∈ vs, P v)
    (h : quick less fallback steps limit ancestor vs = some ws) : ∀ w ∈ ws, P w := by
  induction steps generalizing limit ancestor vs ws with
  | zero => exact forall_small hd hv h
  | succ steps ih =>
    unfold quick at h
    split at h
    · exact forall_small hd hv h
    · cases limit with
      | zero => exact hfall _ _ hv h
      | succ limit =>
        dsimp only at h
        split at h
        -- What equals the pivot before is set apart.
        · obtain ⟨others, ho, h⟩ := Option.bind_eq_some_iff.mp h
          cases h
          exact List.forall_mem_append.mpr ⟨(forall_divide hv).1, ih (forall_divide hv).2 ho⟩
        · obtain ⟨right, hr, h⟩ := Option.bind_eq_some_iff.mp h
          obtain ⟨left, hl, h⟩ := Option.bind_eq_some_iff.mp h
          cases h
          exact List.forall_mem_append.mpr
            ⟨ih (forall_divide hv).1 hl, ih (forall_divide hv).2 hr⟩

/-! ### Runs -/

theorem forall_mergeFront {steps : Nat} {ls rs done : List α} (hl : ∀ l ∈ ls, P l)
    (hr : ∀ r ∈ rs, P r) (hdone : ∀ w ∈ done, P w) :
    ∀ w ∈ mergeFront less steps ls rs done, P w := by
  induction steps, ls, rs, done using mergeFront.induct less with
  | case1 done steps l ls r rs hless ih =>
    obtain ⟨hr, hrs⟩ := List.forall_mem_cons.mp hr
    rw [mergeFront, if_pos hless]
    exact ih hl hrs (List.forall_mem_cons.mpr ⟨hr, hdone⟩)
  | case2 done steps l ls r rs hless ih =>
    obtain ⟨hl, hls⟩ := List.forall_mem_cons.mp hl
    rw [mergeFront, if_neg hless]
    exact ih hls hr (List.forall_mem_cons.mpr ⟨hl, hdone⟩)
  | case3 steps ls rs done hend =>
    rw [mergeFront]
    · simpa [or_imp, forall_and] using ⟨hdone, hl, hr⟩
    · exact hend

theorem forall_mergeBack {steps : Nat} {ls rs done : List α} (hl : ∀ l ∈ ls, P l)
    (hr : ∀ r ∈ rs, P r) (hdone : ∀ w ∈ done, P w) :
    ∀ w ∈ mergeBack less steps ls rs done, P w := by
  induction steps, ls, rs, done using mergeBack.induct less with
  | case1 done steps l ls r rs hless ih =>
    obtain ⟨hl, hls⟩ := List.forall_mem_cons.mp hl
    rw [mergeBack, if_pos hless]
    exact ih hls hr (List.forall_mem_cons.mpr ⟨hl, hdone⟩)
  | case2 done steps l ls r rs hless ih =>
    obtain ⟨hr, hrs⟩ := List.forall_mem_cons.mp hr
    rw [mergeBack, if_neg hless]
    exact ih hl hrs (List.forall_mem_cons.mpr ⟨hr, hdone⟩)
  | case3 steps ls rs done hend =>
    rw [mergeBack]
    · simpa [or_imp, forall_and] using ⟨hl, hr, hdone⟩
    · exact hend

theorem forall_merge {ls rs : List α} (hl : ∀ l ∈ ls, P l) (hr : ∀ r ∈ rs, P r) :
    ∀ w ∈ merge less ls rs, P w := by
  unfold merge
  dsimp only
  split
  · exact forall_mergeFront hl hr fun _ h => nomatch h
  · exact forall_mergeBack (by simpa using hl) (by simpa using hr) fun _ h => nomatch h

theorem forall_nextRun {enough : Nat} {sort : Option (List α → Option (List α))}
    (hsort : ∀ s, sort = some s → ∀ us ws, (∀ u ∈ us, P u) → s us = some ws → ∀ w ∈ ws, P w)
    {vs : List α} (hv : ∀ v ∈ vs, P v) {run : Run α}
    (h : nextRun less enough sort vs = some run) : ∀ w ∈ run.items, P w := by
  have htake (n : Nat) : ∀ w ∈ vs.take n, P w := fun w hw => hv w (List.mem_of_mem_take hw)
  unfold nextRun at h
  extract_lets descends length at h
  split at h
  · cases h
    dsimp only
    split
    · simpa using htake _
    · exact htake _
  · cases sort with
    | none =>
      cases h
      exact htake _
    | some s =>
      obtain ⟨ws, hs, rfl⟩ := Option.map_eq_some_iff.mp h
      exact hsort s rfl _ _ (htake _) hs

theorem forall_joinRuns {sort : List α → Option (List α)}
    (hsort : ∀ us ws, (∀ u ∈ us, P u) → sort us = some ws → ∀ w ∈ ws, P w) {room : Nat}
    {l r run : Run α} (hl : ∀ w ∈ l.items, P w) (hr : ∀ w ∈ r.items, P w)
    (h : joinRuns less sort room l r = some run) : ∀ w ∈ run.items, P w := by
  -- A run that is not in order yet is sorted before it is merged.
  have hside (s : Run α) (hs : ∀ w ∈ s.items, P w) (ws : List α)
      (e : (if s.inOrder then some s.items else sort s.items) = some ws) : ∀ w ∈ ws, P w := by
    split at e
    · cases e
      exact hs
    · exact hsort _ _ hs e
  unfold joinRuns at h
  split at h
  · have h : ((if l.inOrder then some l.items else sort l.items).bind fun left =>
        (if r.inOrder then some r.items else sort r.items).bind fun right =>
          some ⟨true, merge less left right⟩) = some run := by
      rw [← h]
      cases l.inOrder <;> cases r.inOrder <;> rfl
    obtain ⟨left, hleft, h⟩ := Option.bind_eq_some_iff.mp h
    obtain ⟨right, hright, h⟩ := Option.bind_eq_some_iff.mp h
    cases h
    exact forall_merge (hside l hl _ hleft) (hside r hr _ hright)
  · cases h
    exact List.forall_mem_append.mpr ⟨hl, hr⟩

theorem forall_collapse {join : Run α → Run α → Option (Run α)}
    (hjoin : ∀ l r run, (∀ w ∈ l.items, P w) → (∀ w ∈ r.items, P w) → join l r = some run →
      ∀ w ∈ run.items, P w)
    {wanted : Nat} {stack stack' : List (Run α × Nat)} {last last' : Run α}
    (hs : ∀ e ∈ stack, ∀ w ∈ e.1.items, P w) (hl : ∀ w ∈ last.items, P w)
    (h : collapse join wanted stack last = some (stack', last')) :
    (∀ e ∈ stack', ∀ w ∈ e.1.items, P w) ∧ ∀ w ∈ last'.items, P w := by
  induction stack generalizing last with
  | nil =>
    cases h
    exact ⟨hs, hl⟩
  | cons e rest ih =>
    obtain ⟨run, depth⟩ := e
    cases rest with
    | nil =>
      cases h
      exact ⟨hs, hl⟩
    | cons below stack =>
      obtain ⟨hrun, hrest⟩ := List.forall_mem_cons.mp hs
      unfold collapse at h
      split at h
      · obtain ⟨joined, hj, h⟩ := Option.bind_eq_some_iff.mp h
        exact ih hrest (hjoin _ _ _ hrun hl hj) h
      · cases h
        exact ⟨hs, hl⟩

theorem forall_findRuns {next : List α → Option (Run α)} {join : Run α → Run α → Option (Run α)}
    (hnext : ∀ vs run, (∀ v ∈ vs, P v) → next vs = some run → ∀ w ∈ run.items, P w)
    (hjoin : ∀ l r run, (∀ w ∈ l.items, P w) → (∀ w ∈ r.items, P w) → join l r = some run →
      ∀ w ∈ run.items, P w)
    {length steps place : Nat} {rest : List α} {stack : List (Run α × Nat)} {last run : Run α}
    (hrest : ∀ v ∈ rest, P v) (hs : ∀ e ∈ stack, ∀ w ∈ e.1.items, P w)
    (hl : ∀ w ∈ last.items, P w)
    (h : findRuns next join length steps place rest stack last = some run) :
    ∀ w ∈ run.items, P w := by
  induction steps generalizing place rest stack last with
  | zero =>
    cases h
    exact hl
  | succ steps ih =>
    unfold findRuns at h
    split at h
    · obtain ⟨⟨stack', last'⟩, hc, h⟩ := Option.bind_eq_some_iff.mp h
      cases h
      exact (forall_collapse hjoin hs hl hc).2
    · obtain ⟨run', hr, h⟩ := Option.bind_eq_some_iff.mp h
      obtain ⟨⟨stack', last'⟩, hc, h⟩ := Option.bind_eq_some_iff.mp h
      have hc := forall_collapse hjoin hs hl hc
      refine ih (fun v hv => hrest v (List.mem_of_mem_drop hv)) ?_ (hnext _ _ hrest hr) h
      exact List.forall_mem_cons.mpr ⟨hc.2, hc.1⟩

theorem forall_byRuns [Inhabited α] (hd : P default) {sort : List α → Option (List α)}
    (hsort : ∀ us ws, (∀ u ∈ us, P u) → sort us = some ws → ∀ w ∈ ws, P w) {eager : Bool}
    {vs ws : List α} (hv : ∀ v ∈ vs, P v) (h : byRuns less sort eager vs = some ws) :
    ∀ w ∈ ws, P w := by
  unfold byRuns at h
  obtain ⟨run, hr, h⟩ := Option.bind_eq_some_iff.mp h
  have hrun : ∀ w ∈ run.items, P w := by
    refine forall_findRuns (fun vs run hv => forall_nextRun (fun s hs us ws hu hw => ?_) hv)
      (fun l r run => forall_joinRuns hsort) hv (List.forall_mem_nil _) (List.forall_mem_nil P) hr
    split at hs <;> cases hs
    exact forall_small hd hu hw
  split at h
  · cases h
    exact hrun
  · exact hsort _ _ hrun h

/-- **Sorting.** What holds of the elements, and of the default, holds of the sorted elements. -/
theorem forall_stable [Inhabited α] (hd : P default) {vs ws : List α} (hv : ∀ v ∈ vs, P v)
    (h : stable less vs = some ws) : ∀ w ∈ ws, P w := by
  have hdivided : ∀ us ws, (∀ u ∈ us, P u) → divided less us = some ws → ∀ w ∈ ws, P w := by
    refine fun us ws hu hw => forall_quick hd (fun us ws hu hw => ?_) hu hw
    exact forall_byRuns hd (fun us ws hu hw => by cases hw; exact hu) hu hw
  unfold stable at h
  split at h
  · cases h
    exact forall_insertion hv
  · exact forall_byRuns hd hdivided hv h

end ScriptLang.Sorting
