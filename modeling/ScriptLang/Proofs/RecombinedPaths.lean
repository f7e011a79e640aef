import Mathlib.Data.List.DropRight
import ScriptLang.Proofs.NormalPaths

/-!
# Paths taken apart and put together

* `Path.Parts` — the last segment of a path, and what stands before it: nothing, or a text that ends
  with a slash.
* `Path.dirname_of_parts` and `Path.basename_of_parts` — what is given for a path with a last
  segment; the other paths consist of slashes (`Path.exists_parts`).
* `Path.join_dirname_basename` — directory and last segment put together are the normalized path,
  without a slash at its end.
* `Path.basename_append_extname` — an ending is what the last segment ends with.
* `paths_recombine` is the main statement.
-/

namespace ScriptLang

namespace Path

/-! ### Slashes at the end -/

theorem dropSlashes_eq (cs : List Char) :
    dropSlashes cs =
      if cs.rdropWhile (· == '/') = [] ∧ cs.head? = some '/' then ['/']
      else cs.rdropWhile (· == '/') := by
  simp [dropSlashes, List.rdropWhile]

/-- **The slashes at the end.** Of slashes alone one is kept, otherwise what stands before them. -/
theorem dropSlashes_cases (cs : List Char) :
    cs = [] ∨ (∃ n, cs = List.replicate (n + 1) '/' ∧ dropSlashes cs = ['/']) ∨
      ∃ kept n, cs = kept ++ List.replicate n '/' ∧ dropSlashes cs = kept ∧ kept ≠ [] ∧
        kept.getLast? ≠ some '/' := by
  let kept := cs.rdropWhile (· == '/')
  obtain ⟨n, hsplit⟩ : ∃ n, cs = kept ++ List.replicate n '/' := by
    refine ⟨(cs.rtakeWhile (· == '/')).length, ?_⟩
    have hslashes : ∀ c ∈ cs.rtakeWhile (· == '/'), c = '/' := by
      intro c hc
      simpa using List.mem_rtakeWhile_imp hc
    rw [← List.eq_replicate_of_mem hslashes]
    exact List.rdropWhile_append_rtakeWhile.symm
  by_cases hkept : kept = []
  · -- There are slashes alone, or nothing.
    rw [hkept, List.nil_append] at hsplit
    cases n with
    | zero => exact .inl hsplit
    | succ n =>
      have hhead : cs.head? = some '/' := by rw [hsplit]; rfl
      exact .inr (.inl ⟨n, hsplit, by rw [dropSlashes_eq, if_pos ⟨hkept, hhead⟩]⟩)
  · have hdrop : dropSlashes cs = kept := by rw [dropSlashes_eq, if_neg fun h => hkept h.1]
    refine .inr (.inr ⟨kept, n, hsplit, hdrop, hkept, ?_⟩)
    rw [List.getLast?_eq_some_getLast hkept]
    simpa using List.rdropWhile_last_not _ _ hkept

theorem dropSlashes_concat (cs : List Char) :
    dropSlashes (cs ++ ['/']) = if cs = [] then ['/'] else dropSlashes cs := by
  rw [dropSlashes_eq, dropSlashes_eq, List.rdropWhile_concat_pos _ _ _ (by rfl)]
  cases cs <;> rfl

theorem dropSlashes_append {kept : List Char} (n : Nat) (hne : kept ≠ [])
    (hlast : kept.getLast? ≠ some '/') : dropSlashes (kept ++ List.replicate n '/') = kept := by
  induction n with
  | zero =>
    have hself : kept.rdropWhile (· == '/') = kept := by
      rw [List.rdropWhile_eq_self_iff]
      intro h
      rw [List.getLast?_eq_some_getLast hne] at hlast
      simpa using hlast
    rw [List.replicate_zero, List.append_nil, dropSlashes_eq, hself, if_neg fun h => hne h.1]
  | succ n ih =>
    rw [List.replicate_succ', ← List.append_assoc, dropSlashes_concat, if_neg (by simp [hne]), ih]

theorem dropSlashes_replicate (n : Nat) : dropSlashes (List.replicate (n + 1) '/') = ['/'] := by
  induction n with
  | zero => rfl
  | succ n ih => rw [List.replicate_succ', dropSlashes_concat, if_neg nofun, ih]

theorem dropSlashes_ne_nil {cs : List Char} (h : cs ≠ []) : dropSlashes cs ≠ [] := by
  rcases dropSlashes_cases cs with rfl | ⟨n, -, hdrop⟩ | ⟨kept, n, -, hdrop, hne, -⟩
  · exact absurd rfl h
  · simp [hdrop]
  · rwa [hdrop]

theorem visible_append_slashes (p : String) (n : Nat) :
    visible (p ++ String.ofList (List.replicate n '/')) = visible p := by
  induction n with
  | zero => simp
  | succ n ih =>
    rw [List.replicate_succ', String.ofList_append, ← String.append_assoc]
    exact (visible_append_slash _).trans ih

/-- Slashes at the end change neither the segments nor the beginning. -/
theorem visible_dropSlashes (cs : List Char) :
    visible (String.ofList (dropSlashes cs)) = visible (String.ofList cs) := by
  rcases dropSlashes_cases cs with rfl | ⟨n, rfl, hdrop⟩ | ⟨kept, n, rfl, hdrop, -, -⟩
  · rfl
  · rw [hdrop]
    simpa using (visible_append_slashes "" (n + 1)).symm
  · rw [hdrop, String.ofList_append, visible_append_slashes]

theorem isAbsolute_dropSlashes (cs : List Char) :
    isAbsolute (String.ofList (dropSlashes cs)) = isAbsolute (String.ofList cs) := by
  rcases dropSlashes_cases cs with rfl | ⟨n, rfl, hdrop⟩ | ⟨kept, n, rfl, hdrop, hne, -⟩
  · rfl
  · rw [hdrop]
    simp [isAbsolute, List.replicate_succ]
  · rw [hdrop, String.ofList_append, isAbsolute_append_of_ne_empty]
    simpa using hne

/-! ### The parts of a path -/

theorem join_singleton (path : String) : join [path] = normalize path := by
  by_cases h : path = "" <;> simp [join, h]

theorem join_pair {p q : String} (hp : p ≠ "") (hq : q ≠ "") :
    join [p, q] = normalize (p ++ "/" ++ q) := by
  simp [join, hp, hq]

/-- Putting together what was put together changes nothing. -/
theorem join_join (parts : List String) : join [join parts] = join parts := by
  rw [join_singleton, join, normalize_normalize]

/-- **Parts.** The last segment of a path and what stands before it, up to slashes at the end. -/
structure Parts (path : String) (dir base : List Char) : Prop where
  split : ∃ n, path =
    String.ofList dir ++ String.ofList base ++ String.ofList (List.replicate n '/')
  dir : dir = [] ∨ dir.getLast? = some '/'
  base_ne : base ≠ []
  noSlash : '/' ∉ base

/-- Only paths of slashes have no last segment. -/
theorem exists_parts (path : String) :
    (∃ n, path = String.ofList (List.replicate n '/')) ∨ ∃ dir base, Parts path dir base := by
  rcases dropSlashes_cases path.toList with h | ⟨n, h, -⟩ | ⟨kept, n, h, -, hne, hlast⟩
  · exact .inl ⟨0, by rw [← String.ofList_toList (s := path), h]; rfl⟩
  · exact .inl ⟨n + 1, by rw [← String.ofList_toList (s := path), h]⟩
  · -- The last segment goes back to the last slash of what is kept.
    refine .inr ⟨kept.rdropWhile (· != '/'), kept.rtakeWhile (· != '/'), ?_, ?_, ?_, ?_⟩
    · refine ⟨n, ?_⟩
      rw [← String.ofList_append, List.rdropWhile_append_rtakeWhile, ← String.ofList_append, ← h,
        String.ofList_toList]
    · by_cases hdir : kept.rdropWhile (· != '/') = []
      · exact .inl hdir
      · right
        rw [List.getLast?_eq_some_getLast hdir]
        simpa using List.rdropWhile_last_not _ _ hdir
    · rw [Ne, List.rtakeWhile_eq_nil_iff]
      intro hall
      apply hlast
      rw [List.getLast?_eq_some_getLast hne]
      simpa using hall hne
    · intro hmem
      simpa using List.mem_rtakeWhile_imp hmem

namespace Parts

variable {path : String} {dir base : List Char}

theorem last_ne (h : Parts path dir base) : (dir ++ base).getLast? ≠ some '/' := by
  intro hlast
  rw [List.getLast?_append, List.getLast?_eq_some_getLast h.base_ne, Option.some_or] at hlast
  exact h.noSlash (Option.some.inj hlast ▸ List.getLast_mem h.base_ne)

theorem dropSlashes_eq (h : Parts path dir base) : dropSlashes path.toList = dir ++ base := by
  obtain ⟨n, hpath⟩ := h.split
  rw [hpath, ← String.ofList_append, ← String.ofList_append, String.toList_ofList]
  exact dropSlashes_append n (by simp [h.base_ne]) h.last_ne

theorem not_root (h : Parts path dir base) : dir ++ base ≠ ['/'] := fun hroot =>
  h.last_ne (by rw [hroot]; rfl)

/-- Seen from the end, the last segment comes before the first slash. -/
theorem reverse_cut (h : Parts path dir base) :
    (dir ++ base).reverse.takeWhile (· != '/') = base.reverse ∧
      (dir ++ base).reverse.dropWhile (· != '/') = dir.reverse := by
  have hbase : ∀ c ∈ base.reverse, (c != '/') = true := by
    intro c hc
    rw [bne_iff_ne]
    rintro rfl
    exact h.noSlash (List.mem_reverse.mp hc)
  rw [List.reverse_append, List.takeWhile_append_of_pos hbase, List.dropWhile_append_of_pos hbase]
  rcases h.dir with rfl | hlast
  · simp
  · obtain ⟨before, rfl⟩ := List.getLast?_eq_some_iff.mp hlast
    simp

theorem basename_eq (h : Parts path dir base) : basename path none = String.ofList base := by
  unfold basename
  rw [h.dropSlashes_eq]
  dsimp only
  rw [if_neg (by simpa using h.not_root), afterSlash, h.reverse_cut.1, List.reverse_reverse]

theorem dirname_eq (h : Parts path dir base) :
    dirname path = if dir = [] then "." else String.ofList (dropSlashes dir) := by
  have hpath : path ≠ "" := by
    rintro rfl
    have hnothing : dir ++ base = [] := h.dropSlashes_eq.symm
    exact h.base_ne (List.append_eq_nil_iff.mp hnothing).2
  unfold dirname
  rw [h.dropSlashes_eq, if_neg (by simpa using hpath)]
  dsimp only
  rw [if_neg (by simpa using h.not_root), h.reverse_cut.2]
  rcases h.dir with rfl | hlast
  · rfl
  · obtain ⟨before, rfl⟩ := List.getLast?_eq_some_iff.mp hlast
    rw [List.reverse_concat, dropSlashes_concat]
    by_cases hbefore : before = [] <;> simp [hbefore]

/-- The directory of a path has the segments before the last one. -/
theorem dirname_spec (h : Parts path dir base) :
    dirname path ≠ "" ∧ isAbsolute (dirname path) = isAbsolute path ∧
      visible (dirname path) ++ visible (String.ofList base) = visible path := by
  obtain ⟨n, hpath⟩ := h.split
  have hbase : String.ofList base ≠ "" := by simpa using h.base_ne
  rw [h.dirname_eq, hpath, visible_append_slashes]
  rcases h.dir with rfl | hlast
  · -- Without a directory the path is relative.
    have hrelative : isAbsolute (String.ofList base) = false :=
      isAbsolute_of_noSlash (by simpa using h.noSlash)
    rw [if_pos rfl, String.ofList_nil, String.empty_append,
      isAbsolute_append_of_ne_empty _ hbase, hrelative]
    exact ⟨by decide, by decide, rfl⟩
  · obtain ⟨before, rfl⟩ := List.getLast?_eq_some_iff.mp hlast
    have hdir : before ++ ['/'] ≠ [] := by simp
    have hsplit : String.ofList (before ++ ['/']) = String.ofList before ++ "/" :=
      String.ofList_append ..
    rw [if_neg hdir, isAbsolute_dropSlashes, visible_dropSlashes, String.append_assoc,
      isAbsolute_append_of_ne_empty _ (by simp [hsplit]), hsplit, visible_append_slash_append,
      visible_append_slash]
    exact ⟨by simpa using dropSlashes_ne_nil hdir, rfl, rfl⟩

/-- **Directory and last segment.** Put together they are the path less the slashes at its end. -/
theorem join_eq (h : Parts path dir base) :
    join [dirname path, basename path none] = spell (isAbsolute path) (segments path) := by
  obtain ⟨hdirname, habsolute, hvisible⟩ := h.dirname_spec
  have hbase : String.ofList base ≠ "" := by simpa using h.base_ne
  have hend : ¬ EndsWithSlash (dirname path ++ "/" ++ String.ofList base) := by
    rw [endsWithSlash_append hbase]
    exact not_endsWithSlash_of_noSlash (by simpa using h.noSlash)
  have hjoined : isAbsolute (dirname path ++ "/" ++ String.ofList base) = isAbsolute path := by
    rw [String.append_assoc, isAbsolute_append_of_ne_empty _ hdirname, habsolute]
  rw [h.basename_eq, join_pair hdirname hbase, normalize_eq_spell fun he => absurd he hend, hjoined,
    segments_eq, segments_eq, hjoined, visible_append_slash_append, hvisible]

end Parts

/-- A path of slashes has neither a directory nor a last segment of its own. -/
theorem basename_slashes (n : Nat) (ending : Option String) :
    basename (String.ofList (List.replicate n '/')) ending = "" := by
  cases n with
  | zero => cases ending <;> simp [basename, dropSlashes, afterSlash, dropEnding]
  | succ n => simp [basename, dropSlashes_replicate]

theorem join_dirname_basename (path : String) :
    join [dirname path, basename path none] = withoutSlash (join [path]) := by
  rw [join_singleton, withoutSlash_normalize]
  rcases exists_parts path with ⟨n, rfl⟩ | ⟨dir, base, h⟩
  · have hvisible : visible (String.ofList (List.replicate n '/')) = [] := by
      simpa using visible_append_slashes "" n
    rw [basename_slashes, segments_eq, hvisible]
    cases n with
    | zero => decide
    | succ n =>
      have hdirname : dirname (String.ofList (List.replicate (n + 1) '/')) = "/" := by
        simp [dirname, dropSlashes_replicate]
      have habsolute : isAbsolute (String.ofList (List.replicate (n + 1) '/')) = true := by
        simp [isAbsolute, List.replicate_succ]
      rw [hdirname, habsolute]
      decide
  · exact h.join_eq

/-! ### Endings -/

theorem basename_noSlash (path : String) : '/' ∉ (basename path none).toList := by
  rcases exists_parts path with ⟨n, rfl⟩ | ⟨dir, base, h⟩
  · simp [basename_slashes]
  · rw [h.basename_eq, String.toList_ofList]
    exact h.noSlash

/-- An ending that is not all of the last segment is dropped from it. -/
theorem Parts.basename_some {path : String} {dir base : List Char} (h : Parts path dir base)
    (ending : String) :
    basename path (some ending) =
      if ending ≠ "" ∧ base ≠ ending.toList then String.ofList (dropEnding ending.toList base)
      else String.ofList base := by
  unfold basename
  rw [h.dropSlashes_eq]
  dsimp only
  rw [if_neg (by simpa using h.not_root), afterSlash, h.reverse_cut.1, List.reverse_reverse]
  simp

/-- The ending of a path stands at the end of the last segment, behind something else. -/
theorem exists_stem {path : String} (h : extname path ≠ "") :
    ∃ stem, stem ≠ "" ∧ basename path none = stem ++ extname path := by
  let base := (basename path none).toList
  have hsplit := List.takeWhile_append_dropWhile (p := (· != '.')) (l := base.reverse)
  cases hdrop : base.reverse.dropWhile (· != '.') with
  | nil => exact absurd (by simp only [extname, base, hdrop]) h
  | cons point before =>
    have hext : extname path =
        if before.isEmpty then "" else String.ofList (base.drop before.length) := by
      simp only [extname, base, hdrop]
    rw [hdrop] at hsplit
    have hbefore : before ≠ [] := by
      rintro rfl
      exact h hext
    rw [if_neg (by simpa using hbefore)] at hext
    refine ⟨String.ofList before.reverse, by simpa using hbefore, ?_⟩
    -- Turned around, the last segment is what was found before the point, and the ending.
    have hbase : base = before.reverse ++ base.drop before.length := by
      have hreverse := congrArg List.reverse hsplit
      rw [List.reverse_reverse, List.reverse_append, List.reverse_cons,
        List.append_assoc] at hreverse
      have hlength : before.length = before.reverse.length := List.length_reverse.symm
      rw [← hreverse, hlength, List.drop_left]
    rw [hext, ← String.ofList_append, ← hbase, String.ofList_toList]

/-- **Endings.** What is left of the last segment without its ending is followed by the ending. -/
theorem basename_append_extname (path : String) :
    basename path (some (extname path)) ++ extname path = basename path none := by
  rcases exists_parts path with ⟨n, rfl⟩ | ⟨dir, base, h⟩
  · have hext : extname (String.ofList (List.replicate n '/')) = "" := by
      simp [extname, basename_slashes]
    rw [hext, basename_slashes, basename_slashes, String.append_empty]
  · by_cases hext : extname path = ""
    · rw [hext, h.basename_some, if_neg (by simp), h.basename_eq, String.append_empty]
    · obtain ⟨stem, hstem, hsplit⟩ := exists_stem hext
      have hbase : base = stem.toList ++ (extname path).toList := by
        rw [h.basename_eq] at hsplit
        rw [← String.toList_append, ← hsplit, String.toList_ofList]
      have hwhole : base ≠ (extname path).toList := fun he => by simp [he, hstem] at hbase
      have hdrop : dropEnding (extname path).toList base = stem.toList := by
        rw [dropEnding, hbase, if_pos (by simp)]
        simp
      rw [h.basename_some, if_pos ⟨hext, hwhole⟩, hdrop, String.ofList_toList, hsplit]

end Path

/-- **Paths recombine.** Directory and last segment of a path put together are the normalized path,
without the slash at its end. The last segment holds no slash, and without its ending it is followed
by the ending. Putting together what was put together changes nothing. -/
theorem paths_recombine (path : String) (parts : List String) :
    Path.join [Path.dirname path, Path.basename path none] =
      Path.withoutSlash (Path.join [path]) ∧
    '/' ∉ (Path.basename path none).toList ∧
    Path.join [Path.join parts] = Path.join parts ∧
    Path.basename path (some (Path.extname path)) ++ Path.extname path =
      Path.basename path none :=
  ⟨Path.join_dirname_basename path, Path.basename_noSlash path, Path.join_join parts,
    Path.basename_append_extname path⟩

end ScriptLang
