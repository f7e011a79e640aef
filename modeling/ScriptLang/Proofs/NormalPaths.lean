import ScriptLang.Host.Path

/-!
# The normal form of paths

Normalizing keeps three things of a path: whether it is absolute, whether a slash ends it, and the
segments that remain when `.`, `..` and empty segments have been taken out as far as possible. What
it gives is spelled from these three alone, and it has the same three.

* `Path.Reduced` — segments of which none can be taken out: names, and in a relative path steps up
  before them. Every step of the normalizer keeps this (`Path.step_reduced`).
* `Path.visible` — the segments of a path that are neither empty nor `.`. They are all that the
  normalizer sees (`Path.segments_eq`), and they are those of the parts of a path in order.
* `Path.spell` — the path of given segments, without a slash at its end; `Path.withoutSlash` drops
  such a slash.
* `Path.normalize_eq` is the main statement about the normalizer, and `Path.normalize_normalize` its
  consequence for normalizing twice.
-/

namespace ScriptLang

namespace Path

/-! ### Visible segments -/

/-- The segments of a path that are neither empty nor `.`. -/
def visible (path : String) : List String :=
  (Pieces.splitText '/' path).filter fun s => s ≠ "" ∧ s ≠ "."

theorem visible_append_slash_append (p q : String) :
    visible (p ++ "/" ++ q) = visible p ++ visible q := by
  have hlist : (p ++ "/" ++ q).toList = p.toList ++ '/' :: q.toList := by
    simp [String.toList_append]
  simp only [visible, Pieces.splitText, hlist, Pieces.split_append_cons, List.map_append,
    List.filter_append]

/-- A path without slashes is a segment. -/
theorem visible_of_noSlash {s : String} (h : '/' ∉ s.toList) :
    visible s = if s ≠ "" ∧ s ≠ "." then [s] else [] := by
  simp [visible, Pieces.splitText, Pieces.split_of_not_mem h, List.filter_cons]

@[simp] theorem visible_empty : visible "" = [] := by decide

@[simp] theorem visible_dot : visible "." = [] := by decide

@[simp] theorem visible_slash : visible "/" = [] := by decide

theorem visible_slash_append (p : String) : visible ("/" ++ p) = visible p := by
  simpa using visible_append_slash_append "" p

theorem visible_append_slash (p : String) : visible (p ++ "/") = visible p := by
  simpa using visible_append_slash_append p ""

/-- The visible segments of segments put together are those of each. -/
theorem visible_intercalate (ps : List String) :
    visible (String.intercalate "/" ps) = ps.flatMap visible := by
  induction ps with
  | nil => simp
  | cons p ps ih =>
    cases ps with
    | nil => simp
    | cons q qs =>
      rw [String.intercalate_cons_cons, visible_append_slash_append, ih]
      rfl

/-! ### Reduced segments -/

/-- **Name.** A segment that stands for an entry of a directory. -/
structure IsName (s : String) : Prop where
  ne_empty : s ≠ ""
  ne_dot : s ≠ "."
  ne_up : s ≠ ".."
  noSlash : '/' ∉ s.toList

/-- **Reduced.** Segments, the last one first, of which none can be taken out. -/
inductive Reduced (absolute : Bool) : List String → Prop where
  | ups (n : Nat) : (absolute = true → n = 0) → Reduced absolute (List.replicate n "..")
  | name {s : String} {done : List String} : IsName s → Reduced absolute done →
      Reduced absolute (s :: done)

variable {absolute : Bool} {done : List String} {s : String}

theorem Reduced.nil (absolute : Bool) : Reduced absolute [] := .ups 0 fun _ => rfl

/-- One more segment. -/
theorem step_reduced (hs : '/' ∉ s.toList) (h : Reduced absolute done) :
    Reduced absolute (step absolute done s) := by
  unfold step
  split
  · exact h
  · rename_i hvisible
    split
    · -- A step up takes back the last name. At the root there is none, elsewhere it stays.
      cases h with
      | name hname hdone => simpa [hname.ne_up] using hdone
      | ups n hn =>
        cases n with
        | zero =>
          cases absolute with
          | true => exact .nil _
          | false => exact .ups 1 nofun
        | succ n => exact .ups (n + 2) fun ha => absurd (hn ha) (Nat.succ_ne_zero n)
    · rename_i hup
      exact .name ⟨fun h => hvisible (.inl h), fun h => hvisible (.inr h), hup, hs⟩ h

theorem foldl_step_reduced {segments : List String} (hs : ∀ s ∈ segments, '/' ∉ s.toList)
    (h : Reduced absolute done) : Reduced absolute (segments.foldl (step absolute) done) := by
  induction segments generalizing done with
  | nil => exact h
  | cons s segments ih =>
    obtain ⟨hhead, htail⟩ := List.forall_mem_cons.mp hs
    exact ih htail (step_reduced hhead h)

/-- Nothing is taken out of reduced segments. -/
theorem foldl_step_reverse (h : Reduced absolute done) :
    done.reverse.foldl (step absolute) [] = done := by
  induction h with
  | @name s done hs _ ih =>
    rw [List.reverse_cons, List.foldl_append, ih]
    simp [step, hs.ne_empty, hs.ne_dot, hs.ne_up]
  | ups n hn =>
    rw [List.reverse_replicate]
    induction n with
    | zero => rfl
    | succ n ih =>
      -- An absolute path has no steps upward at its front.
      have hrelative : absolute = false := by
        cases absolute with
        | true => exact absurd (hn rfl) (Nat.succ_ne_zero n)
        | false => rfl
      rw [List.replicate_succ', List.foldl_append, ih fun h => by simp [hrelative] at h,
        ← List.replicate_succ']
      cases n <;> simp [step, hrelative, List.replicate_succ]

/-- The normalizer does not see the other segments. -/
theorem foldl_step_filter (segments : List String) :
    (segments.filter fun s => s ≠ "" ∧ s ≠ ".").foldl (step absolute) done =
      segments.foldl (step absolute) done := by
  induction segments generalizing done with
  | nil => rfl
  | cons s segments ih =>
    by_cases hs : s = "" ∨ s = "."
    · have hskip : step absolute done s = done := if_pos hs
      rw [List.filter_cons_of_neg (by simpa using fun h => hs.resolve_left h), ih, List.foldl_cons,
        hskip]
    · rw [List.filter_cons_of_pos (by simpa [not_or] using hs), List.foldl_cons, ih,
        List.foldl_cons]

theorem segments_eq (path : String) :
    segments path = ((visible path).foldl (step (isAbsolute path)) []).reverse := by
  rw [visible, foldl_step_filter, segments]

theorem reduced_segments (path : String) : Reduced (isAbsolute path) (segments path).reverse := by
  rw [segments, List.reverse_reverse]
  refine foldl_step_reduced (fun s hs => ?_) (.nil _)
  obtain ⟨piece, hpiece, rfl⟩ := List.mem_map.mp hs
  simpa using Pieces.not_mem_of_mem_split hpiece

/-- Of reduced segments all remain. -/
theorem segments_of_visible {path : String} {ss : List String}
    (h : Reduced (isAbsolute path) ss.reverse) (hvisible : visible path = ss) :
    segments path = ss := by
  have hfold := foldl_step_reverse h
  rw [List.reverse_reverse] at hfold
  rw [segments_eq, hvisible, hfold, List.reverse_reverse]

/-- What every reduced segment is, a step up included. -/
theorem Reduced.segment (h : Reduced absolute done) (hs : s ∈ done) :
    s ≠ "" ∧ s ≠ "." ∧ '/' ∉ s.toList := by
  induction h with
  | ups n => obtain ⟨-, rfl⟩ := List.mem_replicate.mp hs; decide
  | name hname _ ih =>
    rcases List.mem_cons.mp hs with rfl | hs
    · exact ⟨hname.ne_empty, hname.ne_dot, hname.noSlash⟩
    · exact ih hs

/-- Reduced segments are visible again when they are put together. -/
theorem Reduced.visible_intercalate (h : Reduced absolute done) :
    visible (String.intercalate "/" done.reverse) = done.reverse := by
  have hself : ∀ s ∈ done.reverse, visible s = [s] := by
    intro s hs
    obtain ⟨hempty, hdot, hslash⟩ := h.segment (List.mem_reverse.mp hs)
    rw [visible_of_noSlash hslash, if_pos ⟨hempty, hdot⟩]
  rw [Path.visible_intercalate, List.flatMap_def, List.map_congr_left hself, ← List.flatMap_def,
    List.flatMap_singleton']

/-! ### The ends of a path -/

/-- Whether a slash ends a path. -/
def EndsWithSlash (path : String) : Prop := path.toList.getLast? = some '/'

instance (path : String) : Decidable (EndsWithSlash path) :=
  inferInstanceAs (Decidable (path.toList.getLast? = some '/'))

/-- A path without the slash at its end, unless it is the root. -/
def withoutSlash (path : String) : String :=
  if EndsWithSlash path ∧ path ≠ "/" then String.ofList path.toList.dropLast else path

/-- The beginning of a path is that of its first part. -/
theorem isAbsolute_append_of_ne_empty {p : String} (q : String) (hp : p ≠ "") :
    isAbsolute (p ++ q) = isAbsolute p := by
  unfold isAbsolute
  rw [String.toList_append]
  cases hlist : p.toList with
  | nil => exact absurd (String.toList_eq_nil_iff.mp hlist) hp
  | cons c cs => rfl

/-- The end of a path is that of its last part. -/
theorem endsWithSlash_append {p q : String} (hq : q ≠ "") :
    EndsWithSlash (p ++ q) ↔ EndsWithSlash q := by
  have hlist : q.toList ≠ [] := mt String.toList_eq_nil_iff.mp hq
  rw [EndsWithSlash, EndsWithSlash, String.toList_append, List.getLast?_append,
    List.getLast?_eq_some_getLast hlist]
  rfl

theorem endsWithSlash_append_slash (p : String) : EndsWithSlash (p ++ "/") :=
  (endsWithSlash_append (by decide)).mpr rfl

theorem not_endsWithSlash_of_noSlash {s : String} (h : '/' ∉ s.toList) : ¬ EndsWithSlash s :=
  fun he => h (List.mem_of_getLast? he)

theorem isAbsolute_of_noSlash {s : String} (h : '/' ∉ s.toList) : isAbsolute s = false := by
  unfold isAbsolute
  cases hlist : s.toList with
  | nil => rfl
  | cons c cs =>
    rw [hlist] at h
    simpa using Ne.symm (not_or.mp (mt List.mem_cons.mpr h)).1

/-- **Segments put together.** A path of segments that are neither empty nor hold a slash neither
begins nor ends with one. -/
theorem ends_intercalate {ss : List String} (h : ∀ s ∈ ss, s ≠ "" ∧ '/' ∉ s.toList)
    (hne : ss ≠ []) :
    let path := String.intercalate "/" ss
    path ≠ "" ∧ isAbsolute path = false ∧ ¬ EndsWithSlash path := by
  induction ss with
  | nil => exact absurd rfl hne
  | cons s ss ih =>
    obtain ⟨⟨hempty, hslash⟩, hss⟩ := List.forall_mem_cons.mp h
    have habsolute := isAbsolute_of_noSlash hslash
    cases ss with
    | nil => simpa using ⟨hempty, habsolute, not_endsWithSlash_of_noSlash hslash⟩
    | cons t ts =>
      obtain ⟨hrest, -, hend⟩ := ih hss nofun
      dsimp only
      rw [String.intercalate_cons_cons, String.append_assoc, isAbsolute_append_of_ne_empty _ hempty,
        endsWithSlash_append (by simp), endsWithSlash_append hrest]
      exact ⟨by simp [hempty], habsolute, hend⟩

/-! ### Spelling -/

/-- The path of some segments, without a slash at its end. -/
def spell (absolute : Bool) (segments : List String) : String :=
  if absolute then "/" ++ String.intercalate "/" segments
  else if segments = [] then "." else String.intercalate "/" segments

variable {ss : List String}

theorem ends_spell (h : Reduced absolute ss.reverse) :
    spell absolute ss ≠ "" ∧ isAbsolute (spell absolute ss) = absolute ∧
      (EndsWithSlash (spell absolute ss) ↔ absolute = true ∧ ss = []) := by
  have hss : ∀ s ∈ ss, s ≠ "" ∧ '/' ∉ s.toList := fun s hs =>
    have hs := h.segment (List.mem_reverse.mpr hs)
    ⟨hs.1, hs.2.2⟩
  by_cases hne : ss = []
  · subst hne
    cases absolute <;> decide
  · obtain ⟨hempty, habsolute, hend⟩ := ends_intercalate hss hne
    cases absolute with
    | true =>
      have hspell : spell true ss = "/" ++ String.intercalate "/" ss := rfl
      rw [hspell, endsWithSlash_append hempty, isAbsolute_append_of_ne_empty _ (by decide)]
      exact ⟨by simp, by decide, by simp [hend, hne]⟩
    | false =>
      have hspell : spell false ss = String.intercalate "/" ss := by simp [spell, hne]
      rw [hspell]
      exact ⟨hempty, habsolute, by simp [hend]⟩

/-- The segments of a spelled path are those that it was spelled from. -/
theorem visible_spell (h : Reduced absolute ss.reverse) : visible (spell absolute ss) = ss := by
  have hss := h.visible_intercalate
  rw [List.reverse_reverse] at hss
  unfold spell
  split
  · rw [visible_slash_append, hss]
  · split
    · next he => rw [he]; decide
    · exact hss

/-! ### Normalizing -/

/-- **The normalizer.** What it gives is spelled from whether the path is absolute, its reduced
segments, and whether a slash ends it. -/
theorem normalize_eq (path : String) :
    normalize path = spell (isAbsolute path) (segments path) ++
      if EndsWithSlash path ∧ segments path ≠ [] then "/" else "" := by
  by_cases hempty : path = ""
  · subst hempty
    decide
  obtain ⟨hne, -, hend⟩ := ends_spell (reduced_segments path)
  unfold normalize
  rw [if_neg (by simpa using hempty)]
  dsimp only
  by_cases hnothing : isAbsolute path = false ∧ segments path = []
  · -- A relative path of which nothing remains.
    simp [hnothing, spell]
  · have hspell : (if isAbsolute path then "/" ++ String.intercalate "/" (segments path)
        else String.intercalate "/" (segments path)) = spell (isAbsolute path) (segments path) := by
      unfold spell
      cases ha : isAbsolute path with
      | true => rfl
      | false =>
        have hsegments : segments path ≠ [] := fun h => hnothing ⟨ha, h⟩
        simp [hsegments]
    rw [hspell, if_neg (by simpa using hne)]
    -- The slash at the end is kept, unless the path has one already.
    by_cases hslash : EndsWithSlash path ∧ segments path ≠ []
    · obtain ⟨hpath, hsegments⟩ := hslash
      have hspelled : ¬ EndsWithSlash (spell (isAbsolute path) (segments path)) :=
        fun he => hsegments (hend.mp he).2
      have hadds : (path.toList.getLast? == some '/' &&
          (spell (isAbsolute path) (segments path)).toList.getLast? != some '/') = true := by
        rw [Bool.and_eq_true, beq_iff_eq, bne_iff_ne]
        exact ⟨hpath, hspelled⟩
      rw [if_pos hadds, if_pos ⟨hpath, hsegments⟩]
    · rw [if_neg hslash, if_neg, String.append_empty]
      simp only [Bool.and_eq_true, beq_iff_eq, bne_iff_ne]
      rintro ⟨hpath, hspelled⟩
      have hsegments : segments path = [] := Decidable.byContradiction fun h => hslash ⟨hpath, h⟩
      have habsolute : isAbsolute path = true :=
        Bool.of_not_eq_false fun h => hnothing ⟨h, hsegments⟩
      exact hspelled (hend.mpr ⟨habsolute, hsegments⟩)

/-- The segments that remain of a path, and the ends of it. -/
theorem ends_normalize (path : String) :
    isAbsolute (normalize path) = isAbsolute path ∧ segments (normalize path) = segments path ∧
      (EndsWithSlash (normalize path) ∧ segments path ≠ [] ↔
        EndsWithSlash path ∧ segments path ≠ []) := by
  have hreduced : Reduced (isAbsolute path) (segments path).reverse := reduced_segments path
  obtain ⟨hne, habsolute, hend⟩ := ends_spell hreduced
  have hvisible : visible (normalize path) = segments path := by
    rw [normalize_eq]
    split
    · rw [visible_append_slash, visible_spell hreduced]
    · rw [String.append_empty, visible_spell hreduced]
  have hkind : isAbsolute (normalize path) = isAbsolute path := by
    rw [normalize_eq, isAbsolute_append_of_ne_empty _ hne, habsolute]
  refine ⟨hkind, segments_of_visible (by rwa [hkind]) hvisible, ?_⟩
  · refine and_congr_left fun hsegments => ?_
    rw [normalize_eq]
    by_cases hpath : EndsWithSlash path
    · simp only [hpath, hsegments, ne_eq, not_false_eq_true, and_self, if_true, iff_true]
      exact endsWithSlash_append_slash _
    · simp [hpath, hend, hsegments]

/-- **Normalizing twice is normalizing once.** -/
theorem normalize_normalize (path : String) : normalize (normalize path) = normalize path := by
  obtain ⟨habsolute, hsegments, hend⟩ := ends_normalize path
  rw [normalize_eq (normalize path), habsolute, hsegments, normalize_eq path]
  rw [normalize_eq path] at hend
  simp only [hend]

/-- Without the slash at the end only the segments are left. -/
theorem withoutSlash_normalize (path : String) :
    withoutSlash (normalize path) = spell (isAbsolute path) (segments path) := by
  obtain ⟨hne, -, hend⟩ := ends_spell (reduced_segments path)
  rw [normalize_eq]
  split
  · have hroot : spell (isAbsolute path) (segments path) ++ "/" ≠ "/" := fun h =>
      hne (by simpa using h)
    rw [withoutSlash, if_pos ⟨endsWithSlash_append_slash _, hroot⟩, String.toList_append]
    simp
  · rw [String.append_empty, withoutSlash, if_neg]
    -- Of spelled paths only the root ends with a slash.
    rintro ⟨hslash, hroot⟩
    obtain ⟨habsolute, hsegments⟩ := hend.mp hslash
    exact hroot (by rw [habsolute, hsegments]; decide)

/-- A path that no slash ends, or of which nothing remains. -/
theorem normalize_eq_spell {path : String} (h : EndsWithSlash path → segments path = []) :
    normalize path = spell (isAbsolute path) (segments path) := by
  rw [normalize_eq, if_neg fun hslash => hslash.2 (h hslash.1), String.append_empty]

end Path

end ScriptLang
