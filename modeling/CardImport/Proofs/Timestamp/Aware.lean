import CardImport.Job.Status
import CardImport.Proofs.Listing
import CardImport.Proofs.Timestamp.Spelling

/-!
# Timestamps with and without an offset

No text makes the reader of timestamps fail, and what it reads is a valid time after the first year.
Whether its offset is known is seen from the text: exactly if a sign or a `Z` stands behind the date
and the character after it. A date alone, and a time without an offset, are read as well. Such a
timestamp can be compared with no other one that has an offset, and a status may tell times of both
kinds.
-/

namespace CardImport.Timestamp

/-! ## Where an offset stands -/

def behindDate (cs : List Char) : List Char := cs.drop (dateEnd (units cs) + 1)

def HasOffset (s : String) : Prop :=
  (behindDate (normalized s.toList)).any isOffsetSign = true

instance (s : String) : Decidable (HasOffset s) := instDecidableEqBool _ _

theorem length_le_units (cs : List Char) : cs.length ≤ (units cs).length := by
  induction cs with
  | nil => exact Nat.le_refl 0
  | cons c rest ih =>
      have hone : 1 ≤
          (if c.toNat < 0x80 then [c] else List.replicate c.utf8Size '\ufffd').length := by
        split
        · exact Nat.le_refl 1
        · rw [List.length_replicate]
          exact c.utf8Size_pos
      rw [units, List.flatMap_cons, List.length_append, List.length_cons, Nat.add_comm]
      exact Nat.add_le_add hone ih

theorem mem_units_iff {cs : List Char} {c : Char} (hc : isOffsetSign c = true) :
    c ∈ units cs ↔ c ∈ cs := by
  have hascii : c.toNat < 0x80 := by
    simp only [isOffsetSign, Bool.or_eq_true, beq_iff_eq] at hc
    rcases hc with (rfl | rfl) | rfl <;> decide
  rw [units, List.mem_flatMap]
  constructor
  · rintro ⟨d, hd, hmem⟩
    split at hmem
    · rwa [List.mem_singleton.mp hmem]
    · rw [List.eq_of_mem_replicate hmem] at hc
      cases hc
  · intro h
    refine ⟨c, h, ?_⟩
    rw [if_pos hascii]
    exact List.mem_singleton_self c

theorem exists_sign_iff (cs : List Char) :
    (∃ c ∈ cs, isOffsetSign c = true) ↔ cs.dropWhile (fun c => !isOffsetSign c) ≠ [] := by
  rw [ne_eq, List.dropWhile_eq_nil_iff]
  simp

/-- A time has an offset exactly if the sign of one stands in its text. -/
theorem isSome_of_readTime? {cs : List Char} {clock : Clock} {offset : Option Int}
    (h : readTime? cs = some (clock, offset)) :
    offset.isSome = true ↔ ∃ c ∈ cs, isOffsetSign c = true := by
  obtain ⟨⟨clock', left⟩, -, h⟩ := Option.bind_eq_some_iff.mp h
  dsimp only at h
  rw [exists_sign_iff]
  -- The time of day ends before the first sign, and what follows it is read as the offset.
  cases hdrop : cs.dropWhile fun c => !isOffsetSign c with
  | nil =>
      rw [hdrop] at h
      cases left with
      | false =>
          cases h
          exact iff_of_false nofun fun hne => hne rfl
      | true => cases h
  | cons sign rest =>
      rw [hdrop] at h
      refine iff_of_true ?_ (List.cons_ne_nil sign rest)
      split at h
      · rename_i hnil
        cases hnil
      · split at h
        · cases h
        · cases h
          rfl
      · obtain ⟨⟨distance, left'⟩, -, h⟩ := Option.bind_eq_some_iff.mp h
        dsimp only at h
        split at h
        · cases h
        · cases h
          rfl

theorem eq_of_ite_isValid {t t' : Timestamp}
    (h : (if t'.IsValid then some t' else none) = some t) : t.IsValid ∧ t' = t := by
  split at h
  · rename_i hvalid
    cases h
    exact ⟨hvalid, rfl⟩
  · cases h

/-- What is read is valid, and its offset is known exactly if the text has one. -/
theorem of_read? {cs : List Char} {t : Timestamp} (h : read? cs = some t) :
    t.IsValid ∧ (t.offset.isSome = true ↔ ∃ c ∈ behindDate cs, isOffsetSign c = true) := by
  obtain ⟨⟨year, month, day⟩, -, h⟩ := Option.bind_eq_some_iff.mp h
  dsimp only at h
  split at h
  · obtain ⟨⟨clock, offset⟩, htime, h⟩ := Option.bind_eq_some_iff.mp h
    obtain ⟨hvalid, rfl⟩ := eq_of_ite_isValid h
    refine ⟨hvalid, (isSome_of_readTime? htime).trans ?_⟩
    constructor
    · rintro ⟨c, hc, hsign⟩
      exact ⟨c, (mem_units_iff hsign).mp hc, hsign⟩
    · rintro ⟨c, hc, hsign⟩
      exact ⟨c, (mem_units_iff hsign).mpr hc, hsign⟩
  · rename_i hshort
    obtain ⟨hvalid, rfl⟩ := eq_of_ite_isValid h
    have hnothing : behindDate cs = [] := by
      apply List.drop_eq_nil_of_le
      have hlength := length_le_units cs
      omega
    refine ⟨hvalid, ?_⟩
    rw [hnothing]
    simp

/-- What a text is read as is valid and after the first year, and its offset is known exactly if the
text has one. -/
theorem of_ofText? {s : String} {t : Timestamp} (h : ofText? s = some t) :
    t.IsValid ∧ 2 ≤ t.year ∧ (t.offset.isSome = true ↔ HasOffset s) := by
  obtain ⟨hread, hyear⟩ := Option.filter_eq_some_iff.mp h
  obtain ⟨hvalid, hoffset⟩ := of_read? hread
  exact ⟨hvalid, of_decide_eq_true hyear, hoffset.trans List.any_eq_true.symm⟩

/-! ## The timestamps of a status -/

def timeText? : Json → Option String
  | .str s => if (ofText? s).isSome then some s else none
  | _ => none

/-- The texts of an object that are read as timestamps, of the fields with these names. -/
def timeTexts (names : List String) (data : Json) : List String :=
  names.filterMap fun name => timeText? (Fields.getD (data.fields?.getD []) name .null)

/-- The texts in which the data of a status tells times. -/
def statusTexts (data : Json) : List String :=
  let results := (Fields.getD (data.fields?.getD []) "results" .null).elementsOrNone
  timeTexts ["start", "eta"] data ++
    (results.toOption.getD []).flatMap (timeTexts ["start", "end"])

def statusTimes (status : JobStatus) : List Timestamp :=
  [status.start, status.eta].filterMap id ++
    status.results.flatMap fun r => [r.start, r.finish].filterMap id

/-- Whether two timestamps can be compared, and one can be taken from the other. -/
def Comparable (a b : Timestamp) : Prop := a.offset.isSome = b.offset.isSome

theorem isSome_of_timeText? {x : Json} {s : String} (h : timeText? x = some s) :
    (ofText? s).isSome = true := by
  unfold timeText? at h
  split at h
  · split at h
    · cases h
      assumption
    · cases h
  · cases h

/-- A value that is decoded tells the time of its text. -/
theorem eq_bind_of_decode {x : Json} {r : Option Timestamp} {before : List Entry}
    (h : ((decode x).run.run before).1 = .ok r) : r = (timeText? x).bind ofText? := by
  cases x with
  | str s =>
      rw [run_decode] at h
      cases h
      rw [timeText?]
      cases hread : ofText? s with
      | none => rfl
      | some t => exact hread.symm
  | _ =>
      -- Anything else is no time if it counts as no, and fails otherwise.
      unfold decode at h
      split at h
      · cases h
        rfl
      · cases h

theorem filterMap_timeTexts (names : List String) (data : Json) :
    (timeTexts names data).filterMap ofText? = (names.map fun name =>
      (timeText? (Fields.getD (data.fields?.getD []) name .null)).bind ofText?).filterMap id := by
  rw [timeTexts, List.filterMap_filterMap, List.filterMap_map]
  rfl

theorem times_of_result {data : Json} {r : ClipResult} {before : List Entry}
    (h : ((ClipResult.decode data).run.run before).1 = .ok r) :
    [r.start, r.finish].filterMap id = (timeTexts ["start", "end"] data).filterMap ofText? := by
  obtain ⟨clipData, _, -, h⟩ := Noted.ok_of_bind h
  obtain ⟨clip, _, -, h⟩ := Noted.ok_of_bind h
  obtain ⟨start, _, hstart, h⟩ := Noted.ok_of_bind h
  obtain ⟨finish, _, hfinish, h⟩ := Noted.ok_of_bind h
  cases h
  rw [filterMap_timeTexts, eq_bind_of_decode hstart, eq_bind_of_decode hfinish]
  rfl

theorem times_of_results {entries : List Json} {results : List ClipResult} {before : List Entry}
    (h : ((entries.mapM ClipResult.decode).run.run before).1 = .ok results) :
    (results.flatMap fun r => [r.start, r.finish].filterMap id) =
      (entries.flatMap (timeTexts ["start", "end"])).filterMap ofText? := by
  induction entries generalizing results before with
  | nil =>
      cases h
      rfl
  | cons entry rest ih =>
      rw [List.mapM_cons] at h
      obtain ⟨r, _, hr, h⟩ := Noted.ok_of_bind h
      obtain ⟨later, _, hlater, h⟩ := Noted.ok_of_bind h
      cases h
      rw [List.flatMap_cons, List.flatMap_cons, List.filterMap_append, ih hlater,
        times_of_result hr]

/-- The timestamps of a status are those that its data tells in texts. -/
theorem statusTimes_of_decode {data : Json} {status : JobStatus}
    (h : (JobStatus.decode data).outcome.1 = .ok status) :
    statusTimes status = (statusTexts data).filterMap ofText? := by
  cases data with
  | obj fields =>
      obtain ⟨fields', _, hfields, h⟩ := Noted.ok_of_bind h
      cases hfields
      obtain ⟨bytesCopied, _, -, h⟩ := Noted.ok_of_bind h
      obtain ⟨bytesTotal, _, -, h⟩ := Noted.ok_of_bind h
      obtain ⟨start, _, hstart, h⟩ := Noted.ok_of_bind h
      obtain ⟨eta, _, heta, h⟩ := Noted.ok_of_bind h
      obtain ⟨entries, _, hentries, h⟩ := Noted.ok_of_bind h
      obtain ⟨results, _, hresults, h⟩ := Noted.ok_of_bind h
      obtain ⟨pendingEntries, _, -, h⟩ := Noted.ok_of_bind h
      obtain ⟨pending, _, -, h⟩ := Noted.ok_of_bind h
      cases h
      have hlisted : (Fields.getD fields "results" .null).elementsOrNone = .ok entries := by
        rwa [Noted.run_lift] at hentries
      rw [statusTexts, statusTimes, List.filterMap_append, filterMap_timeTexts,
        eq_bind_of_decode hstart, eq_bind_of_decode heta, times_of_results hresults]
      dsimp only [Json.fields?, Option.getD_some]
      rw [hlisted]
      rfl
  | _ => cases h

theorem isSome_of_mem_statusTexts {data : Json} {s : String} (h : s ∈ statusTexts data) :
    (ofText? s).isSome = true := by
  have htexts : ∀ names data, s ∈ timeTexts names data → (ofText? s).isSome = true := by
    intro names data hs
    obtain ⟨name, -, hname⟩ := List.mem_filterMap.mp hs
    exact isSome_of_timeText? hname
  rcases List.mem_append.mp h with h | h
  · exact htexts _ _ h
  · obtain ⟨entry, -, hentry⟩ := List.mem_flatMap.mp h
    exact htexts _ _ hentry

/-! ## Comparing -/

theorem comparable_iff {s s' : String} {t t' : Timestamp} (h : ofText? s = some t)
    (h' : ofText? s' = some t') : Comparable t t' ↔ (HasOffset s ↔ HasOffset s') := by
  rw [Comparable, Bool.eq_iff_iff, (of_ofText? h).2.2, (of_ofText? h').2.2]

/-- No text fails. It is taken for no time, or for a valid time after the first year, and the offset
of that time is known exactly if the text has one. So the timestamps of a status can be compared
exactly if all of the texts that they are read from have an offset, or none of them. -/
theorem decode_aware_iff (s : String) (data : Json) :
    (∃ r, (decode (.str s)).outcome.1 = .ok r ∧
      ∀ t ∈ r, t.IsValid ∧ 2 ≤ t.year ∧ (t.offset.isSome = true ↔ HasOffset s)) ∧
    ∀ status, (JobStatus.decode data).outcome.1 = .ok status →
      ((∀ a ∈ statusTimes status, ∀ b ∈ statusTimes status, Comparable a b) ↔
        ∀ s ∈ statusTexts data, ∀ s' ∈ statusTexts data, (HasOffset s ↔ HasOffset s')) := by
  refine ⟨⟨ofText? s, by rw [outcome_decode], fun t ht => of_ofText? ht⟩, ?_⟩
  intro status hstatus
  rw [statusTimes_of_decode hstatus]
  constructor
  · intro h s hs s' hs'
    obtain ⟨t, ht⟩ := Option.isSome_iff_exists.mp (isSome_of_mem_statusTexts hs)
    obtain ⟨t', ht'⟩ := Option.isSome_iff_exists.mp (isSome_of_mem_statusTexts hs')
    rw [← comparable_iff ht ht']
    exact h t (List.mem_filterMap.mpr ⟨s, hs, ht⟩) t' (List.mem_filterMap.mpr ⟨s', hs', ht'⟩)
  · intro h t ht t' ht'
    obtain ⟨s, hs, hread⟩ := List.mem_filterMap.mp ht
    obtain ⟨s', hs', hread'⟩ := List.mem_filterMap.mp ht'
    exact (comparable_iff hread hread').mpr (h s hs s' hs')

def timed (start eta : String) : Json := .obj [("start", .str start), ("eta", .str eta)]

theorem outcome_decode_timed (start eta : String) :
    (JobStatus.decode (timed start eta)).outcome.1 =
      .ok { start := ofText? start, eta := ofText? eta } := by
  have hget : ∀ name default, Fields.getD [("start", .str start), ("eta", .str eta)] name default =
      if name = "start" then .str start else if name = "eta" then .str eta else default := by
    intro name default
    simp only [Fields.getD, Fields.get?, List.lookup_cons, List.lookup_nil, beq_eq_decide]
    by_cases h : name = "start" <;> by_cases h' : name = "eta" <;> simp [h, h']
  have hcount : JobStatus.count .null = .ok 0 := rfl
  have hnone : Json.elementsOrNone .null = .ok [] := rfl
  simp only [JobStatus.decode, timed, Json.fields?, pure_bind, hget, hcount, hnone, Noted.outcome,
    Noted.run_bind, Noted.run_lift, run_decode, String.reduceEq, if_true, if_false]
  rfl

/-- Two times of the same zone. -/
theorem decode_aware_iff_zulu : ∃ status,
    (JobStatus.decode (timed "2014-08-01T11:00:00Z" "2014-08-01T12:00:00Z")).outcome.1 =
      .ok status ∧
    ∀ a ∈ statusTimes status, ∀ b ∈ statusTimes status, Comparable a b := by
  have htexts : statusTexts (timed "2014-08-01T11:00:00Z" "2014-08-01T12:00:00Z") =
      ["2014-08-01T11:00:00Z", "2014-08-01T12:00:00Z"] := by decide +kernel
  have hoffset : ∀ s ∈ ["2014-08-01T11:00:00Z", "2014-08-01T12:00:00Z"], HasOffset s := by
    rw [List.forall_mem_cons, List.forall_mem_singleton]
    constructor <;> decide +kernel
  have hdecoded := outcome_decode_timed "2014-08-01T11:00:00Z" "2014-08-01T12:00:00Z"
  refine ⟨_, hdecoded, ((decode_aware_iff "" _).2 _ hdecoded).mpr ?_⟩
  rw [htexts]
  exact fun s hs s' hs' => iff_of_true (hoffset s hs) (hoffset s' hs')

/-- A date alone is read, and has no offset. So it cannot be compared with a time that has one. -/
theorem not_aware_date :
    (decode (.str "2014-08-01")).outcome.1 = .ok (some ⟨2014, 8, 1, 0, 0, 0, 0, none⟩) ∧
    ∃ status, (JobStatus.decode (timed "2014-08-01" "2014-08-01T12:00:00Z")).outcome.1 =
        .ok status ∧
      ∃ a ∈ statusTimes status, ∃ b ∈ statusTimes status, ¬ Comparable a b := by
  have hdate : ofText? "2014-08-01" = some ⟨2014, 8, 1, 0, 0, 0, 0, none⟩ := by decide +kernel
  have htime : ofText? "2014-08-01T12:00:00Z" = some ⟨2014, 8, 1, 12, 0, 0, 0, some 0⟩ := by
    decide +kernel
  refine ⟨by rw [outcome_decode, hdate], _, outcome_decode_timed _ _, ?_⟩
  rw [hdate, htime]
  exact ⟨_, List.mem_cons_self, _, List.mem_cons_of_mem _ List.mem_cons_self, nofun⟩

end CardImport.Timestamp
