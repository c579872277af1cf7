import Pandora.Lib.Checked

/-! # Frames on a byte stream

A decoder looks at the front of a buffer: it returns a value and the number of elements the value
takes, or nothing if the buffer ends too early. `Delimited` says that it recognises every complete
codeword, whatever follows, and calls no proper prefix of a codeword complete.

A receiver appends each chunk to what is left over and decodes as long as a value comes out
(`drain`, `receive`). Under `Delimited` it returns exactly the values sent, however the stream is
cut into chunks (`receive_eq`). -/

namespace Pandora.Lib.Framing

open Lib.Checked List

variable {α β ε : Type}

/-- A codeword is recognised, whatever follows it, and a proper prefix of it is incomplete. -/
structure Delimited (p : α → Prop) (enc : α → List β) (dec : List β → Except ε (Option (α × ℕ))) :
    Prop where
  ne_nil : ∀ a, p a → enc a ≠ []
  complete : ∀ a, p a → ∀ rest, dec (enc a ++ rest) = .ok (some (a, (enc a).length))
  cut : ∀ a, p a → ∀ s, s <+: enc a → s ≠ enc a → dec s = .ok none
  empty : dec [] = .ok none

/-- At most `fuel` values from the front of the buffer, and what is left of it. -/
def drain (dec : List β → Except ε (Option (α × ℕ))) :
    ℕ → List β → Except ε (List α × List β)
  | 0, buffer => .ok ([], buffer)
  | fuel + 1, buffer => do
    match ← dec buffer with
    | none => pure ([], buffer)
    | some (a, n) =>
      let (values, left) ← drain dec fuel (buffer.drop n)
      pure (a :: values, left)

/-- The values of a sequence of chunks, with the buffer carried from one to the next. No value is
shorter than one element, so the length of the buffer is fuel enough. -/
def receive (dec : List β → Except ε (Option (α × ℕ))) :
    List β → List (List β) → Except ε (List α × List β)
  | buffer, [] => .ok ([], buffer)
  | buffer, chunk :: chunks => do
    let (values, left) ← drain dec (buffer ++ chunk).length (buffer ++ chunk)
    let (more, left) ← receive dec left chunks
    pure (values ++ more, left)

/-- The buffer between two chunks: the stream it begins is `values`, and no value is complete. -/
def Pending (enc : α → List β) (values : List α) (buffer : List β) : Prop :=
  match values with
  | [] => buffer = []
  | a :: _ => buffer <+: enc a ∧ buffer ≠ enc a

section

variable {p : α → Prop} {enc : α → List β} {dec : List β → Except ε (Option (α × ℕ))}

/-- A codeword and the front of a longer stream: the codeword is not complete, or the front goes
past it. -/
theorem prefix_cons {a : α} {values : List α} {s : List β} (hs : s <+: (a :: values).flatMap enc) :
    (s <+: enc a ∧ s ≠ enc a) ∨ ∃ t, s = enc a ++ t ∧ t <+: values.flatMap enc := by
  rw [flatMap_cons] at hs
  have hpre : enc a <+: enc a ++ values.flatMap enc := prefix_append _ _
  rcases List.prefix_or_prefix_of_prefix hs hpre with h | ⟨t, rfl⟩
  · by_cases heq : s = enc a
    · exact .inr ⟨[], by simp [heq], List.nil_prefix⟩
    · exact .inl ⟨h, heq⟩
  · exact .inr ⟨t, rfl, (prefix_append_right_inj _).mp hs⟩

/-- The front of a stream gives the values that are complete in it, and keeps the rest. -/
theorem Delimited.drain_prefix (h : Delimited p enc dec) :
    ∀ (fuel : ℕ) (values : List α) (s : List β), (∀ a ∈ values, p a) →
      s <+: values.flatMap enc → s.length ≤ fuel →
      ∃ done more left, values = done ++ more ∧ s = done.flatMap enc ++ left ∧
        drain dec fuel s = .ok (done, left) ∧ Pending enc more left
  | fuel, [], s, _, hs, _ => by
    have hnil : s = [] := List.prefix_nil.mp hs
    refine ⟨[], [], [], rfl, by simp [hnil], ?_, rfl⟩
    rw [hnil]
    cases fuel with
    | zero => rfl
    | succ fuel =>
      rw [drain, h.empty, ok_bind]
      rfl
  | fuel, a :: values, s, hp, hs, hfuel => by
    have ha : p a := hp a (by simp)
    rcases prefix_cons hs with ⟨hcut, hne⟩ | ⟨t, rfl, ht⟩
    · refine ⟨[], a :: values, s, rfl, by simp, ?_, hcut, hne⟩
      cases fuel with
      | zero => rfl
      | succ fuel =>
        rw [drain, h.cut a ha s hcut hne, ok_bind]
        rfl
    · have hpos : 0 < (enc a).length := length_pos_of_ne_nil (h.ne_nil a ha)
      rw [length_append] at hfuel
      obtain ⟨k, rfl⟩ : ∃ k, fuel = k + 1 := ⟨fuel - 1, by omega⟩
      obtain ⟨done, more, left, hsplit, hstream, hdrain, hpend⟩ :=
        h.drain_prefix k values t (fun b hb => hp b (by simp [hb])) ht (by omega)
      refine ⟨a :: done, more, left, by rw [hsplit, cons_append], ?_, ?_, hpend⟩
      · rw [hstream, flatMap_cons, append_assoc]
      · rw [drain, h.complete a ha t, ok_bind]
        simp only [drop_left, hdrain, ok_bind]
        rfl

/-- What a receiver returns for the chunks of a stream, from any buffer between two chunks. -/
theorem Delimited.receive_pending (h : Delimited p enc dec) :
    ∀ (chunks : List (List β)) (values : List α) (buffer : List β), (∀ a ∈ values, p a) →
      Pending enc values buffer → buffer ++ chunks.flatten = values.flatMap enc →
      receive dec buffer chunks = .ok (values, [])
  | [], [], buffer, _, hpend, _ => by
    have hnil : buffer = [] := hpend
    rw [hnil]
    rfl
  | [], a :: values, buffer, _, ⟨hcut, hne⟩, hstream => by
    -- the whole stream has arrived, so its first codeword is complete
    rw [flatten_nil, append_nil, flatMap_cons] at hstream
    have hlen : (enc a).length ≤ buffer.length := by
      rw [hstream, length_append]
      omega
    exact absurd (hcut.eq_of_length_le hlen) hne
  | chunk :: chunks, values, buffer, hp, _, hstream => by
    rw [flatten_cons, ← append_assoc] at hstream
    have hpre : buffer ++ chunk <+: values.flatMap enc := ⟨_, hstream⟩
    obtain ⟨done, more, left, rfl, hfront, hdrain, hpend⟩ :=
      h.drain_prefix _ values (buffer ++ chunk) hp hpre le_rfl
    have hrest : left ++ chunks.flatten = more.flatMap enc := by
      rw [hfront, append_assoc, flatMap_append] at hstream
      exact append_cancel_left hstream
    have hmore : ∀ a ∈ more, p a := fun a ha => hp a (by simp [ha])
    have ih := h.receive_pending chunks more left hmore hpend hrest
    rw [receive, hdrain, ok_bind]
    simp only [ih, ok_bind]
    rfl

/-- A concatenation of codewords is received as the list of its values, in whatever chunks it
comes. -/
theorem Delimited.receive_eq (h : Delimited p enc dec) {values : List α} (hp : ∀ a ∈ values, p a)
    {chunks : List (List β)} (hstream : chunks.flatten = values.flatMap enc) :
    receive dec [] chunks = .ok (values, []) := by
  refine h.receive_pending chunks values [] hp ?_ hstream
  cases values with
  | nil => rfl
  | cons a values => exact ⟨List.nil_prefix, (h.ne_nil a (hp a (by simp))).symm⟩

end

end Pandora.Lib.Framing
