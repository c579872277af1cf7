import Mathlib

/-! # Ordered sets

A finite set kept as the increasing list of its elements: what an ordered-set container is to a
program that inserts, removes, asks for membership and iterates. Two sets with the same elements
are equal (`ext_mem`), so that a set is rebuilt from the list of its elements (`ofList_elems`). -/

namespace Pandora.Lib.OrderedSets

open List

variable {α : Type} [LinearOrder α]

/-- A set, as the increasing list of its elements. -/
structure OrderedSet (α : Type) [LinearOrder α] where
  elems : List α
  sorted : elems.Pairwise (· < ·)
deriving DecidableEq

namespace OrderedSet

instance : Membership α (OrderedSet α) := ⟨fun s a => a ∈ s.elems⟩

variable {s : OrderedSet α} {a : α}

theorem mem_elems : a ∈ s.elems ↔ a ∈ s := Iff.rfl

instance (a : α) (s : OrderedSet α) : Decidable (a ∈ s) := inferInstanceAs (Decidable (a ∈ s.elems))

def empty : OrderedSet α := ⟨[], .nil⟩

/-- The number of elements. -/
def card (s : OrderedSet α) : ℕ := s.elems.length

theorem nodup (s : OrderedSet α) : s.elems.Nodup := s.sorted.imp fun h => ne_of_lt h

theorem sorted_orderedInsert (ha : a ∉ s) :
    (s.elems.orderedInsert (· ≤ ·) a).Pairwise (· < ·) := by
  have hle : (s.elems.orderedInsert (· ≤ ·) a).Pairwise (· ≤ ·) :=
    List.Pairwise.orderedInsert a s.elems (s.sorted.imp le_of_lt)
  have hnodup : (s.elems.orderedInsert (· ≤ ·) a).Nodup :=
    (perm_orderedInsert _ a s.elems).nodup_iff.mpr (List.nodup_cons.mpr ⟨ha, s.nodup⟩)
  exact hle.imp₂ (fun _ _ hle hne => lt_of_le_of_ne hle hne) hnodup

def insert (s : OrderedSet α) (a : α) : OrderedSet α :=
  if h : a ∈ s then s else ⟨s.elems.orderedInsert (· ≤ ·) a, sorted_orderedInsert h⟩

def remove (s : OrderedSet α) (a : α) : OrderedSet α :=
  ⟨s.elems.erase a, s.sorted.sublist List.erase_sublist⟩

/-- The set of the elements of a list. -/
def ofList (l : List α) : OrderedSet α := l.foldl insert empty

@[simp] theorem not_mem_empty : a ∉ (empty : OrderedSet α) := not_mem_nil

@[simp] theorem mem_insert {b : α} : b ∈ s.insert a ↔ b = a ∨ b ∈ s := by
  unfold insert
  by_cases h : a ∈ s
  · rw [dif_pos h]
    exact ⟨Or.inr, fun hb => hb.elim (fun hab => hab ▸ h) id⟩
  · rw [dif_neg h]
    exact mem_orderedInsert _

@[simp] theorem mem_remove {b : α} : b ∈ s.remove a ↔ b ≠ a ∧ b ∈ s :=
  s.nodup.mem_erase_iff

theorem card_insert (h : a ∉ s) : (s.insert a).card = s.card + 1 := by
  rw [insert, dif_neg h]
  exact orderedInsert_length _ _ _

theorem card_remove_le (s : OrderedSet α) (a : α) : (s.remove a).card ≤ s.card :=
  List.erase_sublist.length_le

theorem card_eq_zero : s.card = 0 ↔ ∀ a, a ∉ s := by
  rw [card, length_eq_zero_iff, eq_nil_iff_forall_not_mem]
  exact Iff.rfl

theorem ext_mem {t : OrderedSet α} (h : ∀ a, a ∈ s ↔ a ∈ t) : s = t := by
  obtain ⟨l, hl⟩ := s
  obtain ⟨m, hm⟩ := t
  have hperm : l.Perm m :=
    (perm_ext_iff_of_nodup (hl.imp ne_of_lt) (hm.imp ne_of_lt)).mpr h
  have heq : l = m := hperm.eq_of_pairwise (fun _ _ _ _ hab hba => absurd hab hba.asymm) hl hm
  subst heq
  rfl

theorem mem_foldl_insert : ∀ (l : List α) (s : OrderedSet α) (a : α),
    a ∈ l.foldl insert s ↔ a ∈ l ∨ a ∈ s
  | [], s, a => by simp
  | b :: l, s, a => by
    rw [foldl_cons, mem_foldl_insert l, mem_insert, mem_cons]
    tauto

theorem mem_ofList {l : List α} : a ∈ ofList l ↔ a ∈ l := by
  rw [ofList, mem_foldl_insert]
  simp

theorem ofList_elems (s : OrderedSet α) : ofList s.elems = s := ext_mem fun _ => mem_ofList

/-- A set of elements of a list has no more elements than the list. -/
theorem card_le_length {l : List α} (h : ∀ a ∈ s, a ∈ l) :
    s.card ≤ l.length :=
  (subperm_of_subset s.nodup h).length_le

/-- Elements that are new to the set, inserted one after the other. -/
theorem card_foldl_insert : ∀ (l : List α) (s : OrderedSet α), l.Nodup → (∀ a ∈ l, a ∉ s) →
    (l.foldl insert s).card = s.card + l.length
  | [], _, _, _ => rfl
  | a :: l, s, hl, hnew => by
    obtain ⟨ha, hl⟩ := List.nodup_cons.mp hl
    have hrest : ∀ b ∈ l, b ∉ s.insert a := by
      intro b hb hmem
      rcases mem_insert.mp hmem with rfl | hmem
      · exact ha hb
      · exact hnew b (mem_cons_of_mem _ hb) hmem
    rw [foldl_cons, card_foldl_insert l _ hl hrest, card_insert (hnew a mem_cons_self),
      length_cons]
    omega

end OrderedSet

end Pandora.Lib.OrderedSets
