import CardImport.Item
import Mathlib.Data.List.Pairwise
import Mathlib.Data.List.Perm.Basic

/-!
# The batch of a list

What is sent of a list are its checked items, each of them once: the selects in front, and within
both kinds in the order of the list. The items are told apart by their positions, so that this also
says which of two equal items comes first. The size that is shown for the list is the size of what
is sent.
-/

namespace CardImport

theorem Clip.ofJson_toJson (c : Clip) : ofJson c.toJson = .ok c := by
  obtain ⟨name, paths, totalSize⟩ := c
  cases paths with
  | nil => rfl
  | cons path rest => rfl

namespace Items

/-- Of two items with their positions, the one that is sent first. -/
def SentBefore (a b : Item × Nat) : Prop :=
  a.1.select = true ∧ b.1.select = false ∨ a.1.select = b.1.select ∧ a.2 < b.2

/-! ## What is sent, with the positions -/

/-- The items that are sent, each with its position in the list. -/
def placed (items : List Item) : List (Item × Nat) :=
  items.zipIdx.filter (fun x => x.1.checked && x.1.select) ++
    items.zipIdx.filter fun x => x.1.checked && !x.1.select

theorem filter_zipIdx (p : Item → Bool) (items : List Item) :
    (items.zipIdx.filter fun x => p x.1).map Prod.fst = items.filter p := by
  have hfirst : items.zipIdx.map Prod.fst = items := List.zipIdx_map_fst 0 items
  conv_rhs => rw [← hfirst]
  rw [List.filter_map]
  rfl

theorem map_fst_placed (items : List Item) : (placed items).map Prod.fst = submitted items := by
  rw [placed, List.map_append, filter_zipIdx fun i => i.checked && i.select,
    filter_zipIdx fun i => i.checked && !i.select]
  rfl

theorem placed_perm (items : List Item) :
    (placed items).Perm (items.zipIdx.filter fun x => x.1.checked) := by
  have hsplit := List.filter_append_perm (fun x : Item × Nat => x.1.select)
    (items.zipIdx.filter fun x => x.1.checked)
  simp only [List.filter_filter] at hsplit
  simpa only [placed, Bool.and_comm] using hsplit

theorem pairwise_zipIdx (items : List Item) :
    items.zipIdx.Pairwise fun a b => a.2 < b.2 := by
  rw [← List.pairwise_map (f := Prod.snd) (R := (· < ·)), List.zipIdx_map_snd]
  exact List.pairwise_lt_range' 1

theorem pairwise_placed (items : List Item) : (placed items).Pairwise SentBefore := by
  -- Within one kind the positions decide.
  have hkind : ∀ (p : Item × Nat → Bool) (kind : Bool), (∀ x, p x = true → x.1.select = kind) →
      (items.zipIdx.filter p).Pairwise SentBefore := by
    intro p kind hp
    apply ((pairwise_zipIdx items).filter p).imp_of_mem
    intro a b ha hb hlt
    right
    constructor
    · rw [hp a (List.mem_filter.mp ha).2, hp b (List.mem_filter.mp hb).2]
    · exact hlt
  rw [placed, List.pairwise_append]
  refine ⟨hkind _ true (by simp), hkind _ false (by simp), ?_⟩
  intro a ha b hb
  left
  simp only [List.mem_filter, Bool.and_eq_true, Bool.not_eq_true'] at ha hb
  exact ⟨ha.2.2, hb.2.2⟩

/-! ## The size of what is sent -/

/-- The size of the clip that is sent of an item. -/
def sentSize (sent : Json) : Except Failure Int := do
  return (← Clip.ofJson (← sent.require "clip")).totalSize

def sentTotal : List Json → Except Failure Int
  | [] => .ok 0
  | sent :: rest => do return (← sentSize sent) + (← sentTotal rest)

def total (items : List Item) : Int :=
  items.foldr (fun i total => i.clip.totalSize + total) 0

theorem sentSize_submission (i : Item) : sentSize i.submission = .ok i.clip.totalSize := by
  have hclip : i.submission.require "clip" = .ok i.clip.toJson := rfl
  rw [sentSize, hclip]
  show (Clip.ofJson i.clip.toJson >>= fun c => Except.ok c.totalSize) = _
  rw [Clip.ofJson_toJson]
  rfl

theorem sentTotal_map_submission (items : List Item) :
    sentTotal (items.map Item.submission) = .ok (total items) := by
  induction items with
  | nil => rfl
  | cons i rest ih =>
      rw [List.map_cons, sentTotal, sentSize_submission, ih]
      rfl

theorem total_eq_of_perm {items items' : List Item} (h : items.Perm items') :
    total items = total items' := by
  induction h with
  | nil => rfl
  | cons i _ ih => exact congrArg (i.clip.totalSize + ·) ih
  | swap i j rest => exact Int.add_left_comm _ _ _
  | trans _ _ ih ih' => exact ih.trans ih'

theorem submitted_perm (items : List Item) :
    (submitted items).Perm (items.filter fun i => i.checked) := by
  have hperm := (placed_perm items).map Prod.fst
  rwa [map_fst_placed, filter_zipIdx] at hperm

/-! ## The batch -/

theorem submitted_eq_nil_iff (items : List Item) :
    submitted items = [] ↔ anyChecked items = false := by
  have hlength := (submitted_perm items).length_eq
  rw [← List.length_eq_zero_iff, hlength, List.length_eq_zero_iff, anyChecked]
  simp

/-- A batch holds the checked items of a list, the selects first and otherwise in the order of the
list. Its size is the one that is shown for the list, and it is empty if nothing is checked. -/
theorem batch_ordered (items : List Item) :
    (∃ order : List (Item × Nat), order.Perm (items.zipIdx.filter fun x => x.1.checked) ∧
      order.Pairwise SentBefore ∧ batch items = order.map fun x => x.1.submission) ∧
    sentTotal (batch items) = .ok (checkedTotal items) ∧
    (batch items = [] ↔ anyChecked items = false) := by
  refine ⟨⟨placed items, placed_perm items, pairwise_placed items, ?_⟩, ?_, ?_⟩
  · rw [batch, ← map_fst_placed, List.map_map]
    rfl
  · rw [batch, sentTotal_map_submission, total_eq_of_perm (submitted_perm items)]
    rfl
  · rw [batch, List.map_eq_nil_iff]
    exact submitted_eq_nil_iff items

end Items

end CardImport
