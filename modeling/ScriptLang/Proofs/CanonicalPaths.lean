import Mathlib.Data.List.Induction
import ScriptLang.Proofs.ImportSearch
import ScriptLang.Proofs.NormalPaths

/-!
# Resolved paths are canonical

Resolving reads the segments from the right, puts those that count together and normalizes them.
From an absolute working directory this is a walk over directories, from the root and from left to
right.

* `Path.walk` — where the components of some segments lead: a name goes down, `..` goes up and stays
  at the root, all else stays.
* `Path.route` — the segments of the walk: those from the last absolute one on
  (`Path.route_of_absolute`), or the working directory and all of them (`Path.route_of_relative`).
* `Path.IsCanonical` — the root, or names behind slashes.
* `Path.resolve_eq_walk` and `Path.canonical_resolve` — the path that is given is the place that the
  walk leads to, which is canonical.
* `Path.placeOf` — the path of the place that segments lead to. Different places have different
  paths (`Path.placeOf_eq_iff`), so two spellings of an import share what it gives exactly if they
  lead to the same place.
* `resolved_paths_canonical` is the main statement, about every host that reads paths as POSIX
  systems do from an absolute directory.
-/

namespace ScriptLang.Path

/-! ### Walks -/

/-- Where one component leads from a place, which is given by the names on the way to it. -/
def walkStep (place : List String) (component : String) : List String :=
  if component = "" ∨ component = "." then place
  else if component = ".." then place.dropLast
  else place ++ [component]

/-- **Walk.** Where the components of some segments lead from the root. -/
def walk (parts : List String) : List String :=
  (parts.flatMap (Pieces.splitText '/')).foldl walkStep []

/-- **Route.** The segments from the last absolute one on, or the working directory and all of them
if none is absolute. -/
def route (cwd : String) (parts : List String) : List String :=
  parts.foldl (fun route part => if isAbsolute part then [part] else route ++ [part]) [cwd]

variable {cwd : String} {parts : List String}

theorem route_concat (cwd : String) (parts : List String) (part : String) :
    route cwd (parts ++ [part]) =
      if isAbsolute part then [part] else route cwd parts ++ [part] := by
  simp [route]

/-- Relative segments follow the others. -/
theorem route_append (cwd : String) (before : List String) {more : List String}
    (h : ∀ p ∈ more, isAbsolute p = false) :
    route cwd (before ++ more) = route cwd before ++ more := by
  induction more generalizing before with
  | nil => simp
  | cons p more ih =>
    obtain ⟨hp, hmore⟩ := List.forall_mem_cons.mp h
    rw [List.append_cons, ih _ hmore, route_concat, hp]
    simp

/-- What stands before the last absolute segment does not count. -/
theorem route_of_absolute (cwd : String) (before : List String) {part : String}
    {after : List String} (hpart : isAbsolute part = true)
    (h : ∀ p ∈ after, isAbsolute p = false) :
    route cwd (before ++ part :: after) = part :: after := by
  rw [List.append_cons, route_append cwd _ h, route_concat, if_pos hpart]
  rfl

/-- Relative segments are taken from the working directory. -/
theorem route_of_relative (cwd : String) (h : ∀ p ∈ parts, isAbsolute p = false) :
    route cwd parts = cwd :: parts :=
  route_append cwd [] h

/-- **Canonical.** The root, or names behind slashes. -/
def IsCanonical (path : String) : Prop :=
  ∃ names, (∀ s ∈ names, IsName s) ∧ path = "/" ++ String.intercalate "/" names

theorem reduced_of_names {absolute : Bool} {done : List String} (h : ∀ s ∈ done, IsName s) :
    Reduced absolute done := by
  induction done with
  | nil => exact .nil absolute
  | cons s done ih =>
    obtain ⟨hs, hdone⟩ := List.forall_mem_cons.mp h
    exact .name hs (ih hdone)

/-- The names of a canonical path can be read off it. -/
theorem segments_of_names {names : List String} (h : ∀ s ∈ names, IsName s) :
    segments ("/" ++ String.intercalate "/" names) = names := by
  have hreduced : Reduced true names.reverse := reduced_of_names (by simpa using h)
  have hspell : "/" ++ String.intercalate "/" names = spell true names := (if_pos rfl).symm
  refine segments_of_visible ?_ ?_
  · rwa [hspell, (ends_spell hreduced).2.1]
  · rw [hspell, visible_spell hreduced]

theorem Reduced.names {done : List String} (h : Reduced true done) : ∀ s ∈ done, IsName s := by
  induction h with
  | ups n hn => simp [hn rfl]
  | name hs _ ih => exact List.forall_mem_cons.mpr ⟨hs, ih⟩

/-- The normalizer of absolute paths walks. -/
theorem step_reverse {place : List String} (h : ∀ s ∈ place, IsName s) (component : String) :
    step true place.reverse component = (walkStep place component).reverse := by
  unfold step walkStep
  split
  · rfl
  · split
    · -- Up from the root there is nowhere to go; elsewhere the last name is no step up itself.
      rcases List.eq_nil_or_concat place with rfl | ⟨init, last, rfl⟩
      · rfl
      · simp [(h last (by simp)).ne_up]
    · simp

theorem foldl_step_eq_walk {place components : List String} (h : ∀ s ∈ place, IsName s)
    (hc : ∀ s ∈ components, '/' ∉ s.toList) :
    components.foldl (step true) place.reverse = (components.foldl walkStep place).reverse := by
  induction components generalizing place with
  | nil => rfl
  | cons component components ih =>
    obtain ⟨hhead, htail⟩ := List.forall_mem_cons.mp hc
    have hplace : ∀ s ∈ walkStep place component, IsName s := by
      have hreduced : Reduced true place.reverse := reduced_of_names (by simpa using h)
      have hstep := step_reduced hhead hreduced
      rw [step_reverse h] at hstep
      simpa using hstep.names
    rw [List.foldl_cons, List.foldl_cons, step_reverse h, ih hplace htail]

theorem noSlash_of_mem_components {s : String} (h : s ∈ parts.flatMap (Pieces.splitText '/')) :
    '/' ∉ s.toList := by
  obtain ⟨part, -, hs⟩ := List.mem_flatMap.mp h
  obtain ⟨piece, hpiece, rfl⟩ := List.mem_map.mp hs
  simpa using Pieces.not_mem_of_mem_split hpiece

theorem foldl_step_components (parts : List String) :
    (parts.flatMap (Pieces.splitText '/')).foldl (step true) [] = (walk parts).reverse :=
  @foldl_step_eq_walk [] _ nofun fun _ => noSlash_of_mem_components

/-- A walk leads to a place with a name for each directory on the way. -/
theorem names_walk (parts : List String) : ∀ s ∈ walk parts, IsName s := by
  have hreduced : Reduced true (walk parts).reverse := by
    rw [← foldl_step_components]
    exact foldl_step_reduced (fun _ => noSlash_of_mem_components) (.nil true)
  simpa using hreduced.names

/-- What remains of an absolute path is where its parts lead. -/
theorem segments_eq_walk {path : String} (h : isAbsolute path = true)
    (hparts : visible path = parts.flatMap visible) : segments path = walk parts := by
  have hcomponents : parts.flatMap visible =
      (parts.flatMap (Pieces.splitText '/')).filter fun s => s ≠ "" ∧ s ≠ "." := by
    rw [List.filter_flatMap]
    rfl
  rw [segments_eq, h, hparts, hcomponents, foldl_step_filter, foldl_step_components,
    List.reverse_reverse]

/-- An absolute path leads to what remains of it. -/
theorem walk_singleton {path : String} (h : isAbsolute path = true) : walk [path] = segments path :=
  (segments_eq_walk h (by simp)).symm

/-! ### Resolving -/

/-- The segments that count, in order. -/
def counted (cwd : String) (parts : List String) : List String :=
  let (last, found) := relevant parts.reverse
  (if found then last else last ++ [cwd]).reverse

theorem counted_concat (cwd : String) (parts : List String) (part : String) :
    counted cwd (parts ++ [part]) =
      if part = "" then counted cwd parts
      else if isAbsolute part then [part]
      else counted cwd parts ++ [part] := by
  unfold counted
  rw [List.reverse_concat, relevant]
  by_cases hempty : part = ""
  · simp [hempty]
  · cases habsolute : isAbsolute part with
    | true => simp [hempty]
    | false => cases hfound : (relevant parts.reverse).2 <;> simp [hempty, hfound]

/-- The segments that count are those of the route, less empty ones. -/
theorem counted_eq (hcwd : isAbsolute cwd = true) (parts : List String) :
    counted cwd parts = (route cwd parts).filter (· ≠ "") := by
  have hne {p : String} (hp : isAbsolute p = true) : p ≠ "" := by
    rintro rfl
    cases hp
  induction parts using List.reverseRecOn with
  | nil => simp [counted, relevant, route, hne hcwd]
  | append_singleton parts part ih =>
    rw [counted_concat, route_concat, ih]
    by_cases hempty : part = ""
    · subst hempty
      have habsolute : isAbsolute "" = false := by decide
      simp [habsolute]
    · cases habsolute : isAbsolute part <;> simp [hempty]

theorem resolve_eq_withoutSlash (cwd : String) (parts : List String) :
    resolve cwd parts = withoutSlash (normalize (String.intercalate "/" (counted cwd parts))) := by
  unfold resolve counted
  dsimp only
  generalize normalize _ = path
  split
  · -- The path ends with a slash, which is cut off unless it is the whole path.
    rename_i rest hrev
    have hlist : path.toList = rest.reverse ++ ['/'] := by
      rw [← List.reverse_reverse path.toList, hrev, List.reverse_cons]
    have hend : EndsWithSlash path := by simp [EndsWithSlash, hlist]
    have hroot : path = "/" ↔ rest = [] := by
      rw [← String.toList_inj, hlist]
      simp
    by_cases hrest : rest = []
    · rw [if_pos (by simpa using hrest), withoutSlash, if_neg fun h => h.2 (hroot.mpr hrest)]
    · rw [if_neg (by simpa using hrest), withoutSlash, if_pos ⟨hend, mt hroot.mp hrest⟩, hlist,
        List.dropLast_concat]
  · rename_i hrev
    rw [withoutSlash, if_neg]
    rintro ⟨hend, -⟩
    obtain ⟨init, hinit⟩ := List.getLast?_eq_some_iff.mp hend
    exact hrev init.reverse (by rw [hinit, List.reverse_concat])

/-- The first segment of a route is absolute. -/
theorem route_head (hcwd : isAbsolute cwd = true) (parts : List String) :
    ∃ p ps, route cwd parts = p :: ps ∧ isAbsolute p = true := by
  induction parts using List.reverseRecOn with
  | nil => exact ⟨cwd, [], rfl, hcwd⟩
  | append_singleton parts part ih =>
    rw [route_concat]
    split
    · exact ⟨part, [], rfl, ‹_›⟩
    · obtain ⟨p, ps, hroute, hp⟩ := ih
      exact ⟨p, ps ++ [part], by rw [hroute]; rfl, hp⟩

/-- What an absolute segment is followed by leaves the path absolute. -/
theorem isAbsolute_intercalate {p : String} (h : isAbsolute p = true) (ps : List String) :
    isAbsolute (String.intercalate "/" (p :: ps)) = true := by
  have hne : p ≠ "" := by
    rintro rfl
    cases h
  cases ps with
  | nil => simpa using h
  | cons q qs =>
    rw [String.intercalate_cons_cons, String.append_assoc, isAbsolute_append_of_ne_empty _ hne, h]

/-- **Resolving is walking.** The path that is given spells the place that the route leads to. -/
theorem resolve_eq_walk (hcwd : isAbsolute cwd = true) (parts : List String) :
    resolve cwd parts = "/" ++ String.intercalate "/" (walk (route cwd parts)) := by
  have habsolute : isAbsolute (String.intercalate "/" (counted cwd parts)) = true := by
    obtain ⟨p, ps, hroute, hp⟩ := route_head hcwd parts
    have hne : p ≠ "" := by
      rintro rfl
      cases hp
    rw [counted_eq hcwd, hroute, List.filter_cons_of_pos (by simpa using hne)]
    exact isAbsolute_intercalate hp _
  have hvisible : visible (String.intercalate "/" (counted cwd parts)) =
      (route cwd parts).flatMap visible := by
    rw [visible_intercalate, counted_eq hcwd]
    -- Empty segments have nothing to see.
    induction route cwd parts with
    | nil => rfl
    | cons p ps ih => by_cases hp : p = "" <;> simp_all
  rw [resolve_eq_withoutSlash, withoutSlash_normalize, habsolute,
    segments_eq_walk habsolute hvisible]
  rfl

theorem canonical_resolve (hcwd : isAbsolute cwd = true) (parts : List String) :
    IsCanonical (resolve cwd parts) :=
  ⟨walk (route cwd parts), names_walk _, resolve_eq_walk hcwd parts⟩

namespace IsCanonical

variable {path : String}

theorem isAbsolute (h : IsCanonical path) : isAbsolute path = true := by
  obtain ⟨names, -, rfl⟩ := h
  exact isAbsolute_append_of_ne_empty _ (by decide)

/-- No slash ends a canonical path but the root. -/
theorem not_endsWithSlash (h : IsCanonical path) (hne : path ≠ "/") : ¬ EndsWithSlash path := by
  obtain ⟨names, hnames, rfl⟩ := h
  have hreduced : Reduced true names.reverse := reduced_of_names (by simpa using hnames)
  intro hend
  obtain ⟨-, rfl⟩ := (ends_spell hreduced).2.2.mp hend
  exact hne (by decide)

/-- A canonical path is its own place. -/
theorem resolve_eq (h : IsCanonical path) (hcwd : Path.isAbsolute cwd = true) :
    resolve cwd [path] = path := by
  have habsolute := h.isAbsolute
  obtain ⟨names, hnames, rfl⟩ := h
  have hroute : route cwd ["/" ++ String.intercalate "/" names] =
      ["/" ++ String.intercalate "/" names] := by
    rw [route, List.foldl_cons, if_pos habsolute, List.foldl_nil]
  rw [resolve_eq_walk hcwd, hroute, walk_singleton habsolute, segments_of_names hnames]

end IsCanonical

end ScriptLang.Path

namespace ScriptLang

/-! ### Places and the keys of imports -/

namespace Path

/-- The path of the place that segments lead to. -/
def placeOf (cwd : String) (parts : List String) : String :=
  "/" ++ String.intercalate "/" (walk (route cwd parts))

/-- The names on the way to a place can be read off its path. -/
theorem segments_placeOf (cwd : String) (parts : List String) :
    segments (placeOf cwd parts) = walk (route cwd parts) :=
  segments_of_names (names_walk _)

theorem placeOf_eq_iff {cwd : String} {parts parts' : List String} :
    placeOf cwd parts = placeOf cwd parts' ↔
      walk (route cwd parts) = walk (route cwd parts') := by
  constructor
  · intro h
    rw [← segments_placeOf, ← segments_placeOf, h]
  · intro h
    rw [placeOf, placeOf, h]

end Path

/-- The places that an import may mean are those that its two spellings lead to. -/
theorem PathRules.importPlaces_posix {cwd : String} (hcwd : Path.isAbsolute cwd = true)
    (file path : String) :
    (posix cwd).importPlaces file path =
      [path, path ++ Eval.sourceEnding].map fun name =>
        Path.placeOf cwd [Path.dirname file, name] := by
  have hresolve : (posix cwd).resolve = Path.resolve cwd := rfl
  have hdirname : (posix cwd).dirname = Path.dirname := rfl
  rw [importPlaces, hresolve, hdirname]
  exact List.map_congr_left fun name _ => Path.resolve_eq_walk hcwd _

/-- **Resolved paths are canonical.** On a host that reads paths as POSIX systems do, from an
absolute directory, a resolved path is the root or names behind slashes, it spells the place that
the segments lead to, and resolving it again gives it back. Segments have the same resolved path
exactly if they lead to the same place. The key of an import is such a path, for the spelling that
was found. -/
theorem resolved_paths_canonical {h : Host} {cwd : String} (hpaths : h.paths = .posix cwd)
    (hcwd : Path.isAbsolute cwd = true) :
    (∀ parts, Path.IsCanonical (h.resolve parts) ∧
      (h.resolve parts ≠ "/" → ¬ Path.EndsWithSlash (h.resolve parts)) ∧
      h.resolve parts = Path.placeOf cwd parts ∧
      h.resolve [h.resolve parts] = h.resolve parts) ∧
    (∀ parts parts', h.resolve parts = h.resolve parts' ↔
      Path.walk (Path.route cwd parts) = Path.walk (Path.route cwd parts')) ∧
    (∀ path loc m key m', m.host = h → Eval.resolveImport path loc m = .ok key m' →
      ∃ name ∈ [path, path ++ Eval.sourceEnding],
        key = Path.placeOf cwd [Path.dirname m.context.file, name]) := by
  have hresolve (parts : List String) : h.resolve parts = Path.resolve cwd parts := by
    rw [Host.resolve, hpaths]
    rfl
  have hplace (parts : List String) : h.resolve parts = Path.placeOf cwd parts :=
    (hresolve parts).trans (Path.resolve_eq_walk hcwd parts)
  refine ⟨fun parts => ?_, fun parts parts' => ?_, ?_⟩
  · have hcanonical : Path.IsCanonical (h.resolve parts) := by
      rw [hresolve]
      exact Path.canonical_resolve hcwd parts
    refine ⟨hcanonical, hcanonical.not_endsWithSlash, hplace parts, ?_⟩
    rw [hresolve [h.resolve parts]]
    exact hcanonical.resolve_eq hcwd
  · rw [hplace, hplace]
    exact Path.placeOf_eq_iff
  · rintro path loc m key m' rfl himport
    obtain ⟨r, m₁, hsearch, hfound, -⟩ := Eval.resolveImport_ok himport
    -- What was found is one of the places that were tried.
    have hkey := hsearch.sought.isPrefix.subset (hsearch.found key hfound).1
    rw [hpaths, PathRules.importPlaces_posix hcwd] at hkey
    obtain ⟨name, hname, rfl⟩ := List.mem_map.mp hkey
    exact ⟨name, hname, rfl⟩

/-- Two spellings of one place below the directory of a sandbox. -/
theorem resolved_paths_canonical_work :
    let h : Host := .sandbox {}
    h.paths = .posix "/work" ∧ Path.isAbsolute "/work" = true ∧
      h.resolve ["lib//", "", "../../x/./b"] = "/x/b" ∧
      h.resolve [h.resolve ["lib//", "", "../../x/./b"]] = "/x/b" ∧
      h.resolve ["lib//", "", "../../x/./b"] = h.resolve ["y", "/../x/b/"] := by
  obtain ⟨hparts, hsame, -⟩ :=
    @resolved_paths_canonical (.sandbox {}) "/work" rfl (by decide)
  refine ⟨rfl, by decide, by rfl, ?_, (hsame _ _).mpr (by rfl)⟩
  rw [(hparts _).2.2.2]
  rfl

end ScriptLang
