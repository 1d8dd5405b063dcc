import Mathlib
import CardImport.Proofs.Span
import CardImport.Proofs.TakePath
import CardImport.Registry

/-!
# Dot segments in the paths of takes

Before a request goes out the segments `.` and `..` are taken out of its path: the first is left
out, and the second takes the segment before it along. `removeDots` does so character by character.
On a path that is given by its segments it works like a stack, so that a path stays as it is exactly
if it has no dot segment. Percent-encoding leaves a dot as it is. So the path of a take stays as it
is, and addresses the take, unless its scene or its number is one of these two texts.
-/

namespace CardImport

namespace UrlPath

/-! ## Removing dot segments -/

def isNoSlash (c : Char) : Bool := c != '/'

def dropLastSegment (path : List Char) : List Char :=
  (path.reverse.dropWhile isNoSlash).tail.reverse

/-- The path without dot segments, behind what was moved already. -/
def removeDots (moved : List Char) : List Char → List Char
  | [] => moved
  | '.' :: '.' :: '/' :: rest => removeDots moved rest
  | '.' :: '/' :: rest => removeDots moved rest
  | '/' :: '.' :: '/' :: rest => removeDots moved ('/' :: rest)
  | ['/', '.'] => removeDots moved ['/']
  | '/' :: '.' :: '.' :: '/' :: rest => removeDots (dropLastSegment moved) ('/' :: rest)
  | ['/', '.', '.'] => removeDots (dropLastSegment moved) ['/']
  | ['.', '.'] => moved
  | ['.'] => moved
  | c :: rest => removeDots (moved ++ c :: rest.takeWhile isNoSlash) (rest.dropWhile isNoSlash)
termination_by path => path.length
decreasing_by
  all_goals simp only [List.length_cons, List.length_nil]
  any_goals omega
  exact Nat.lt_succ_of_le (List.dropWhile_sublist _).length_le

/-- What a path comes to when it is sent. -/
def normal (path : String) : String := String.ofList (removeDots [] path.toList)

/-! ## Paths by their segments -/

def ofSegments (segments : List (List Char)) : List Char := segments.flatMap ('/' :: ·)

/-- Whether segments are what stands between the slashes of a path. -/
def Unslashed (segments : List (List Char)) : Prop := ∀ s ∈ segments, '/' ∉ s

/-- Whether a segment is one of those that are removed. -/
def IsDot (s : List Char) : Prop := s = ['.'] ∨ s = ['.', '.']

instance (s : List Char) : Decidable (IsDot s) := by
  unfold IsDot
  infer_instance

@[simp] theorem ofSegments_nil : ofSegments [] = [] := rfl

theorem ofSegments_cons (s : List Char) (segments : List (List Char)) :
    ofSegments (s :: segments) = '/' :: (s ++ ofSegments segments) := rfl

theorem ofSegments_append (segments later : List (List Char)) :
    ofSegments (segments ++ later) = ofSegments segments ++ ofSegments later :=
  List.flatMap_append

theorem splitOnP_ofSegments {segments : List (List Char)} (h : Unslashed segments) :
    (ofSegments segments).splitOnP (· == '/') = [] :: segments := by
  have hsegment : ∀ {s : List Char}, '/' ∉ s → s.splitOnP (· == '/') = [s] := by
    intro s hs
    apply List.splitOnP_eq_singleton
    intro c hc
    simp only [beq_eq_false_iff_ne, ne_eq]
    rintro rfl
    exact hs hc
  have hbehind : ∀ {s : List Char}, '/' ∉ s →
      (s ++ ofSegments segments).splitOnP (· == '/') = s :: segments := by
    induction segments with
    | nil =>
        intro s hs
        simpa [ofSegments] using hsegment hs
    | cons t rest ih =>
        intro s hs
        obtain ⟨ht, hrest⟩ := List.forall_mem_cons.mp h
        rw [ofSegments_cons, List.splitOnP_append_cons _ _ rfl, hsegment hs, ih hrest ht]
        rfl
  exact hbehind List.not_mem_nil

theorem ofSegments_inj {segments segments' : List (List Char)} (h : Unslashed segments)
    (h' : Unslashed segments') (heq : ofSegments segments = ofSegments segments') :
    segments = segments' := by
  have hsplit := splitOnP_ofSegments h
  rw [heq, splitOnP_ofSegments h'] at hsplit
  exact (List.cons.inj hsplit).2.symm

theorem isNoSlash_of_mem {s : List Char} (h : '/' ∉ s) : ∀ c ∈ s, isNoSlash c = true := by
  intro c hc
  rw [isNoSlash, bne_iff_ne]
  rintro rfl
  exact h hc

theorem dropLastSegment_concat (moved : List Char) {s : List Char} (h : '/' ∉ s) :
    dropLastSegment (moved ++ '/' :: s) = moved := by
  have hsegment : ∀ c ∈ s.reverse, isNoSlash c = true :=
    isNoSlash_of_mem fun hslash => h (List.mem_reverse.mp hslash)
  unfold dropLastSegment
  rw [List.reverse_append, List.reverse_cons, List.append_assoc,
    List.dropWhile_append_of_pos hsegment]
  simp [isNoSlash]

theorem dropLastSegment_ofSegments {segments : List (List Char)} (h : Unslashed segments) :
    dropLastSegment (ofSegments segments) = ofSegments segments.dropLast := by
  rcases List.eq_nil_or_concat segments with rfl | ⟨before, s, rfl⟩
  · rfl
  · have hs : '/' ∉ s := h s (by simp)
    have hconcat : ofSegments (before ++ [s]) = ofSegments before ++ '/' :: s := by
      simp [ofSegments]
    rw [List.concat_eq_append, hconcat, dropLastSegment_concat _ hs, List.dropLast_concat]

/-! ## The stack of segments -/

/-- The segments that are left after those that are done. A dot segment at the end leaves an empty
one there. -/
def resolved (done : List (List Char)) : List (List Char) → List (List Char)
  | [] => done
  | s :: rest =>
    let done :=
      if s = ['.'] then done else if s = ['.', '.'] then done.dropLast else done ++ [s]
    if IsDot s ∧ rest = [] then done ++ [[]] else resolved done rest

@[simp] theorem resolved_nil (done : List (List Char)) : resolved done [] = done := rfl

@[simp] theorem resolved_dot (done segments : List (List Char)) :
    resolved done (['.'] :: segments) =
      if segments = [] then done ++ [[]] else resolved done segments := by
  simp [resolved, IsDot]

@[simp] theorem resolved_twoDots (done segments : List (List Char)) :
    resolved done (['.', '.'] :: segments) =
      if segments = [] then done.dropLast ++ [[]] else resolved done.dropLast segments := by
  simp [resolved, IsDot]

theorem resolved_segment (done : List (List Char)) {s : List Char} (hs : ¬ IsDot s)
    (segments : List (List Char)) :
    resolved done (s :: segments) = resolved (done ++ [s]) segments := by
  have hne : s ≠ ['.'] ∧ s ≠ ['.', '.'] := not_or.mp hs
  simp [resolved, hs, hne]

theorem removeDots_slash (moved : List Char) : removeDots moved ['/'] = moved ++ ['/'] := by
  simp [removeDots]

/-- A dot segment at the end leaves an empty one, and any other is removed with its slash. -/
theorem removeDots_dot (moved : List Char) (segments : List (List Char)) :
    removeDots moved ('/' :: '.' :: ofSegments segments) =
      if segments = [] then moved ++ ofSegments [[]] else removeDots moved (ofSegments segments) := by
  cases segments with
  | nil => rw [ofSegments_nil, if_pos rfl, removeDots, removeDots_slash, ofSegments_cons]; rfl
  | cons s rest => rw [ofSegments_cons, removeDots, if_neg (List.cons_ne_nil _ _)]

theorem removeDots_twoDots (moved : List Char) (segments : List (List Char)) :
    removeDots moved ('/' :: '.' :: '.' :: ofSegments segments) =
      if segments = [] then dropLastSegment moved ++ ofSegments [[]]
      else removeDots (dropLastSegment moved) (ofSegments segments) := by
  cases segments with
  | nil => rw [ofSegments_nil, if_pos rfl, removeDots, removeDots_slash, ofSegments_cons]; rfl
  | cons s rest => rw [ofSegments_cons, removeDots, if_neg (List.cons_ne_nil _ _)]

theorem removeDots_segment (moved : List Char) {s : List Char} (hs : '/' ∉ s) (hdot : ¬ IsDot s)
    (segments : List (List Char)) :
    removeDots moved ('/' :: (s ++ ofSegments segments)) =
      removeDots (moved ++ '/' :: s) (ofSegments segments) := by
  have hall := isNoSlash_of_mem hs
  have hstop : ∀ c ∈ (ofSegments segments).head?, isNoSlash c = false := by
    cases segments with
    | nil => exact nofun
    | cons t rest =>
        rintro _ ⟨⟩
        rfl
  obtain ⟨hfirst, hrest⟩ := span_of_stop hall hstop
  -- The rules for dot segments look at the first segment only.
  have hone : ∀ later, (s ++ ofSegments segments) = '.' :: later →
      later.takeWhile isNoSlash ≠ [] := by
    intro later hlater hempty
    apply hdot
    rw [← hfirst, hlater]
    exact Or.inl (congrArg _ hempty)
  have htwo : ∀ later, (s ++ ofSegments segments) = '.' :: '.' :: later →
      later.takeWhile isNoSlash ≠ [] := by
    intro later hlater hempty
    apply hdot
    rw [← hfirst, hlater]
    exact Or.inr (congrArg (fun cs => '.' :: '.' :: cs) hempty)
  rw [removeDots.eq_10, hfirst, hrest]
  · exact fun _ hc => absurd hc (by decide)
  · exact fun _ hc => absurd hc (by decide)
  · exact fun _ _ hlater => hone _ hlater rfl
  · exact fun _ hlater => hone _ hlater rfl
  · exact fun _ _ hlater => htwo _ hlater rfl
  · exact fun _ hlater => htwo _ hlater rfl
  · exact fun hc => absurd hc (by decide)
  · exact fun hc => absurd hc (by decide)

theorem Unslashed.dropLast {segments : List (List Char)} (h : Unslashed segments) :
    Unslashed segments.dropLast := fun s hs => h s (List.dropLast_subset _ hs)

theorem Unslashed.concat {segments : List (List Char)} (h : Unslashed segments) {s : List Char}
    (hs : '/' ∉ s) : Unslashed (segments ++ [s]) :=
  List.forall_mem_append.mpr ⟨h, List.forall_mem_singleton.mpr hs⟩

/-- On a path of segments the removal works like a stack. -/
theorem removeDots_ofSegments {done segments : List (List Char)} (hdone : Unslashed done)
    (h : Unslashed segments) :
    removeDots (ofSegments done) (ofSegments segments) = ofSegments (resolved done segments) := by
  induction segments generalizing done with
  | nil => rw [ofSegments_nil, removeDots, resolved_nil]
  | cons s rest ih =>
      obtain ⟨hs, hrest⟩ := List.forall_mem_cons.mp h
      rw [ofSegments_cons]
      by_cases hdot : IsDot s
      · rcases hdot with rfl | rfl
        · show removeDots _ ('/' :: '.' :: ofSegments rest) = _
          rw [removeDots_dot, resolved_dot, ih hdone hrest, apply_ite ofSegments, ofSegments_append]
        · show removeDots _ ('/' :: '.' :: '.' :: ofSegments rest) = _
          rw [removeDots_twoDots, dropLastSegment_ofSegments hdone, resolved_twoDots,
            ih hdone.dropLast hrest, apply_ite ofSegments, ofSegments_append]
      · have hconcat : ofSegments done ++ '/' :: s = ofSegments (done ++ [s]) := by
          simp [ofSegments]
        rw [removeDots_segment _ hs hdot, hconcat, ih (hdone.concat hs) hrest,
          resolved_segment _ hdot]

example : normal "/a/b/c/./../../g" = "/a/g" := by cbv

/-- What is left are segments of the path that are no dot segments, and the empty one. -/
theorem forall_resolved {P : List Char → Prop} (hempty : P []) {done segments : List (List Char)}
    (hdone : ∀ s ∈ done, P s) (h : ∀ s ∈ segments, ¬ IsDot s → P s) :
    ∀ s ∈ resolved done segments, P s := by
  have hconcat : ∀ {done : List (List Char)} {s : List Char}, (∀ t ∈ done, P t) → P s →
      ∀ t ∈ done ++ [s], P t := fun hbefore hs =>
    List.forall_mem_append.mpr ⟨hbefore, List.forall_mem_singleton.mpr hs⟩
  induction segments generalizing done with
  | nil => exact hdone
  | cons s rest ih =>
      obtain ⟨hs, hrest⟩ := List.forall_mem_cons.mp h
      have hdropped : ∀ t ∈ done.dropLast, P t := fun t ht => hdone t (List.dropLast_subset _ ht)
      by_cases hdot : IsDot s
      · rcases hdot with rfl | rfl
        · rw [resolved_dot]
          split
          · exact hconcat hdone hempty
          · exact ih hdone hrest
        · rw [resolved_twoDots]
          split
          · exact hconcat hdropped hempty
          · exact ih hdropped hrest
      · rw [resolved_segment _ hdot]
        exact ih (hconcat hdone (hs hdot)) hrest

theorem resolved_of_plain (done : List (List Char)) {segments : List (List Char)}
    (h : ∀ s ∈ segments, ¬ IsDot s) : resolved done segments = done ++ segments := by
  induction segments generalizing done with
  | nil => exact (List.append_nil done).symm
  | cons s rest ih =>
      obtain ⟨hs, hrest⟩ := List.forall_mem_cons.mp h
      rw [resolved_segment _ hs, ih _ hrest, List.append_assoc, List.singleton_append]

theorem unslashed_resolved {segments : List (List Char)} (h : Unslashed segments) :
    Unslashed (resolved [] segments) :=
  forall_resolved List.not_mem_nil (List.forall_mem_nil _) fun s hs _ => h s hs

theorem removeDots_nil_ofSegments {segments : List (List Char)} (h : Unslashed segments) :
    removeDots [] (ofSegments segments) = ofSegments (resolved [] segments) :=
  @removeDots_ofSegments [] segments (List.forall_mem_nil _) h

/-- A path is kept as it is exactly if it has no dot segment. -/
theorem removeDots_eq_self_iff {segments : List (List Char)} (h : Unslashed segments) :
    removeDots [] (ofSegments segments) = ofSegments segments ↔ ∀ s ∈ segments, ¬ IsDot s := by
  rw [removeDots_nil_ofSegments h]
  constructor
  · intro heq
    have hnone : ∀ s ∈ resolved [] segments, ¬ IsDot s :=
      forall_resolved (by decide) (List.forall_mem_nil _) fun _ _ => id
    rwa [ofSegments_inj (unslashed_resolved h) h heq] at hnone
  · intro hplain
    rw [resolved_of_plain _ hplain, List.nil_append]

end UrlPath

/-! ## Paths of takes -/

namespace TakeId

open UrlPath

/-- Whether a text is a dot segment when it stands in a path. -/
def IsDots (s : String) : Prop := s = "." ∨ s = ".."

def segments (scene num : String) : List (List Char) :=
  ["take".toList, Text.percentEncode (Text.utf8Bytes scene),
    Text.percentEncode (Text.utf8Bytes num)]

theorem toList_path (scene num : String) : ∃ path, (ofText scene num).path = .ok path ∧
    path.toList = ofSegments (segments scene num) := by
  refine ⟨_, rfl, ?_⟩
  simp [String.toList_append, ofSegments, segments, collectionPath]

theorem unslashed_segments (scene num : String) : Unslashed (segments scene num) := by
  have hencoded : ∀ text : String, '/' ∉ Text.percentEncode (Text.utf8Bytes text) :=
    fun text hslash => (Text.of_mem_percentEncode hslash).2 rfl
  simp [Unslashed, segments, hencoded]

/-- Percent-encoding makes a dot segment of nothing else. -/
theorem isDot_percentEncode_iff (s : String) :
    IsDot (Text.percentEncode (Text.utf8Bytes s)) ↔ IsDots s := by
  have hdot : Text.percentEncode (Text.utf8Bytes ".") = ['.'] := by cbv
  have htwo : Text.percentEncode (Text.utf8Bytes "..") = ['.', '.'] := by cbv
  have hinj : ∀ t : String, Text.percentEncode (Text.utf8Bytes s) =
      Text.percentEncode (Text.utf8Bytes t) ↔ s = t := by
    intro t
    constructor
    · intro heq
      have hread := Text.percentText?_percentEncode s
      rw [heq, Text.percentText?_percentEncode] at hread
      exact (Option.some.inj hread).symm
    · rintro rfl
      rfl
  rw [IsDot, ← htwo, ← hdot, hinj, hinj]
  rfl

/-! ## Requests for takes -/

/-- The method and the path of a call for the take with an id. -/
inductive IsCall (id : TakeId) : String → String → Prop
  | get {c : Call Take} (call : Registry.get id = .ok c) : IsCall id c.method c.path
  | update {t : Take} {c : Call Unit} (call : Registry.update id t = .ok c) :
    IsCall id c.method c.path
  | delete {c : Call Unit} (call : Registry.delete id = .ok c) : IsCall id c.method c.path

theorem isCall_iff {id : TakeId} {path : String} (h : id.path = .ok path) (method p : String) :
    IsCall id method p ↔ method ∈ ["GET", "PUT", "DELETE"] ∧ p = path := by
  constructor
  · rintro (hcall | hcall | hcall)
    · rw [Registry.get, h] at hcall
      cases hcall
      simp
    · rw [Registry.update, h] at hcall
      cases hcall
      simp
    · rw [Registry.delete, h] at hcall
      cases hcall
      simp
  · rintro ⟨hmethod, rfl⟩
    have hget : ∃ c, Registry.get id = .ok c ∧ c.method = "GET" ∧ c.path = p := by
      rw [Registry.get, h]
      exact ⟨_, rfl, rfl, rfl⟩
    have hupdate : ∃ c, Registry.update id ⟨id, .null, false⟩ = .ok c ∧ c.method = "PUT" ∧
        c.path = p := by
      rw [Registry.update, h]
      exact ⟨_, rfl, rfl, rfl⟩
    have hdelete : ∃ c, Registry.delete id = .ok c ∧ c.method = "DELETE" ∧ c.path = p := by
      rw [Registry.delete, h]
      exact ⟨_, rfl, rfl, rfl⟩
    -- Each method has its call, and all calls of a take have the same path.
    simp only [List.mem_cons, List.not_mem_nil, or_false] at hmethod
    rcases hmethod with rfl | rfl | rfl
    · obtain ⟨c, hc, hm, hp⟩ := hget
      rw [← hm, ← hp]
      exact .get hc
    · obtain ⟨c, hc, hm, hp⟩ := hupdate
      rw [← hm, ← hp]
      exact .update hc
    · obtain ⟨c, hc, hm, hp⟩ := hdelete
      rw [← hm, ← hp]
      exact .delete hc

/-- If three segments are left of a path with a dot segment, the last of them is empty in its
place. -/
theorem of_resolved_dot {f s f' s' : List Char} (hdot : IsDot f ∨ IsDot s)
    (h : resolved [] ["take".toList, f, s] = ["take".toList, f', s']) : IsDot s ∧ s' = [] := by
  have htake : ¬ IsDot "take".toList := by decide
  rw [resolved_segment _ htake] at h
  by_cases hf : IsDot f
  · -- A dot segment in the middle leaves at most two segments.
    by_cases hs : IsDot s
    · rcases hf with rfl | rfl <;> rcases hs with rfl | rfl <;> simp at h
    · rcases hf with rfl | rfl <;> simp [resolved_segment _ hs] at h
  · have hs := hdot.resolve_left hf
    refine ⟨hs, ?_⟩
    rw [resolved_segment _ hf] at h
    rcases hs with rfl | rfl
    · simp at h
      exact h.2
    · simp at h

/-- What is left of a path with a dot segment has fewer parts, or no number. -/
theorem not_addresses_of_dots {scene num path : String} (hdots : IsDots scene ∨ IsDots num)
    (hpath : path.toList = ofSegments (segments scene num)) :
    ¬ Addresses (normal path) scene num := by
  rintro ⟨-, -, first, second, hsplit, -, hnum⟩
  have hunslashed := unslashed_segments scene num
  rw [normal, String.toList_ofList, hpath, removeDots_nil_ofSegments hunslashed,
    splitOnP_ofSegments (unslashed_resolved hunslashed)] at hsplit
  rw [← isDot_percentEncode_iff, ← isDot_percentEncode_iff] at hdots
  obtain ⟨hdot, rfl⟩ := of_resolved_dot hdots (List.cons.inj hsplit).2
  obtain rfl : "" = num := Option.some.inj hnum
  exact absurd hdot (by decide +kernel)

/-- The requests for a take go to one path. It is sent as it is, and what is sent addresses the
take, exactly if neither its scene nor its number is a dot segment. -/
theorem reaches_itself_iff (scene num : String) : ∃ path, (ofText scene num).path = .ok path ∧
    (∀ method p, IsCall (ofText scene num) method p ↔
      method ∈ ["GET", "PUT", "DELETE"] ∧ p = path) ∧
    (normal path = path ↔ ¬ IsDots scene ∧ ¬ IsDots num) ∧
    (Addresses (normal path) scene num ↔ ¬ IsDots scene ∧ ¬ IsDots num) := by
  obtain ⟨path, hpath, hsegments⟩ := toList_path scene num
  have hkept : normal path = path ↔ ¬ IsDots scene ∧ ¬ IsDots num := by
    have htake : ¬ IsDot "take".toList := by decide
    have hself : normal path = path ↔
        removeDots [] (ofSegments (segments scene num)) = ofSegments (segments scene num) := by
      rw [normal, ← hsegments, ← String.toList_inj, String.toList_ofList]
    rw [hself, removeDots_eq_self_iff (unslashed_segments scene num), segments]
    simp only [List.forall_mem_cons, List.not_mem_nil, false_implies, implies_true, and_true,
      isDot_percentEncode_iff, htake, not_false_eq_true, true_and]
  refine ⟨path, hpath, isCall_iff hpath, hkept, ?_⟩
  constructor
  · intro haddresses
    by_contra hdots
    rw [not_and_or, not_not, not_not] at hdots
    exact not_addresses_of_dots hdots hsegments haddresses
  · intro hplain
    obtain ⟨path', hpath', haddresses⟩ := addresses_path scene num
    cases hpath'.symm.trans hpath
    rwa [hkept.mpr hplain]

/-- A request for one of these takes reaches something else: no take at all, all takes, or another
take. -/
theorem not_kept_dots :
    ((ofText ".." "1").path = .ok "/take/../1" ∧ normal "/take/../1" = "/1") ∧
    ((ofText "a" "..").path = .ok "/take/a/.." ∧ normal "/take/a/.." = collectionPath) ∧
    ((ofText "a" ".").path = .ok "/take/a/." ∧
      (ofText "a" "").path = .ok (normal "/take/a/.")) := by
  refine ⟨⟨by cbv, by cbv⟩, ⟨by cbv, by cbv⟩, by cbv, by cbv⟩

end TakeId

end CardImport
