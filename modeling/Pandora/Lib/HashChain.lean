import Mathlib

/-! # Hash chains

Records that carry a digest. In a chain each is checked against the digest before it (`Chained`):
the last record of a longer chain against the last digest (`chained_concat`), and a front of a chain
is a chain (`Chained.front`).

In `Linked` the check is that the record names the digest before it. Where no two records share a
digest, the last digest then determines the whole chain (`Linked.eq_of_lastDigest`). -/

namespace Pandora.Lib.HashChain

open List

variable {ρ δ : Type} (digest : ρ → δ) (previous : ρ → Option δ)

/-- The digest of the last record, or the one before the first. -/
def lastDigest (start : Option δ) (records : List ρ) : Option δ :=
  (records.getLast?.map digest).or start

variable (ok : Option δ → ρ → Prop) in
/-- Every record is in order after the digest of the one before it, the first after `start`. -/
def Chained : Option δ → List ρ → Prop
  | _, [] => True
  | start, r :: records => ok start r ∧ Chained (some (digest r)) records

/-- Every record names the digest of the one before it; the first names `start`. -/
def Linked : Option δ → List ρ → Prop
  | _, [] => True
  | start, r :: records => previous r = start ∧ Linked (some (digest r)) records

variable {digest previous}

theorem lastDigest_concat (start : Option δ) (records : List ρ) (r : ρ) :
    lastDigest digest start (records ++ [r]) = some (digest r) := by
  unfold lastDigest
  rw [List.getLast?_concat]
  rfl

theorem lastDigest_cons (start : Option δ) (records : List ρ) (r : ρ) :
    lastDigest digest start (r :: records) = lastDigest digest (some (digest r)) records := by
  rcases eq_nil_or_concat records with rfl | ⟨front, last, rfl⟩
  · rfl
  · rw [concat_eq_append, lastDigest_concat, ← cons_append, lastDigest_concat]

section Chained

variable {ok : Option δ → ρ → Prop}

theorem chained_concat : ∀ {start : Option δ} {records : List ρ} {r : ρ},
    Chained digest ok start (records ++ [r]) ↔
      Chained digest ok start records ∧ ok (lastDigest digest start records) r
  | start, [], r => by simp [Chained, lastDigest]
  | start, s :: records, r => by
    rw [cons_append, Chained, Chained, chained_concat, lastDigest_cons, and_assoc]

theorem Chained.front : ∀ {start : Option δ} {front records : List ρ},
    Chained digest ok start records → front <+: records → Chained digest ok start front
  | _, [], _, _, _ => trivial
  | _, s :: front, [], _, h => by
    have hnil := List.prefix_nil.mp h
    cases hnil
  | _, s :: front, r :: records, hchained, h => by
    obtain ⟨rfl, hfront⟩ := List.cons_prefix_cons.mp h
    exact ⟨hchained.1, hchained.2.front hfront⟩

end Chained

theorem linked_iff_chained : ∀ {start : Option δ} {records : List ρ},
    Linked digest previous start records ↔
      Chained digest (fun start r => previous r = start) start records
  | _, [] => Iff.rfl
  | _, _ :: _ => and_congr Iff.rfl linked_iff_chained

theorem linked_concat {start : Option δ} {records : List ρ} {r : ρ} :
    Linked digest previous start (records ++ [r]) ↔
      Linked digest previous start records ∧ previous r = lastDigest digest start records := by
  rw [linked_iff_chained, chained_concat, linked_iff_chained]

/-- Two chains from nothing with the same last digest are the same: the last records are, and each
names the digest the rest ends with. -/
theorem Linked.eq_of_lastDigest : ∀ {records records' : List ρ},
    (∀ r ∈ records, ∀ r' ∈ records', digest r = digest r' → r = r') →
    Linked digest previous none records → Linked digest previous none records' →
    lastDigest digest none records = lastDigest digest none records' → records = records' := by
  intro records
  induction records using List.reverseRecOn with
  | nil =>
    intro records' _ _ _ hlast
    rcases eq_nil_or_concat records' with rfl | ⟨front, last, rfl⟩
    · rfl
    · rw [concat_eq_append, lastDigest_concat] at hlast
      cases hlast
  | append_singleton records r ih =>
    intro records' hinj hlinked hlinked' hlast
    rw [lastDigest_concat] at hlast
    rcases eq_nil_or_concat records' with rfl | ⟨front, r', rfl⟩
    · cases hlast
    · rw [concat_eq_append] at hinj hlinked' hlast ⊢
      rw [lastDigest_concat, Option.some.injEq] at hlast
      obtain rfl := hinj r (by simp) r' (by simp) hlast
      obtain ⟨hlinked, hprevious⟩ := linked_concat.mp hlinked
      obtain ⟨hlinked', hprevious'⟩ := linked_concat.mp hlinked'
      rw [ih (fun s hs s' hs' => hinj s (by simp [hs]) s' (by simp [hs'])) hlinked hlinked'
        (hprevious.symm.trans hprevious')]

end Pandora.Lib.HashChain
