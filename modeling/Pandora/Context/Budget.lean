import Pandora.Context.Transparency

/-! # The token budget

Of the fragments that may be taken the first with each identifier counts (`firsts`). The loop takes
them in their order while the budget lasts, passes over those without content, and shortens the last
one to what is left (`Placed`). -/

namespace Pandora.Context.Budget

open Text Lib.Checked Context.Fragments Context.Engine Context.Transparency List

variable {sha : Sha256} {env : ContextEnv} {engine : ContextEngine} {access : FileAccess}
  {request : ContextRequest} {fragments seen : List (ContextFragment sha)}
  {f : ContextFragment sha} {acc : Assembling}

/-! ### First occurrences -/

section Firsts
variable {α β : Type} [DecidableEq β] (key : α → β)

theorem filter_snoc (p : α → Bool) (l : List α) (a : α) :
    (l ++ [a]).filter p = if p a then l.filter p ++ [a] else l.filter p := by
  rw [filter_append]
  split_ifs with ha
  · rw [filter_cons_of_pos ha]
    rfl
  · rw [filter_cons_of_neg ha]
    exact append_nil _

/-- The elements whose key does not occur before them. -/
def firstsBy (l : List α) : List α := l.eraseDupsBy fun a b => decide (key a = key b)

theorem firstsBy_cons (a : α) (l : List α) :
    firstsBy key (a :: l) = a :: firstsBy key (l.filter fun b => key b ≠ key a) := by
  unfold firstsBy
  rw [eraseDupsBy_cons]
  congr 2
  refine filter_congr fun b _ => ?_
  by_cases hb : key b = key a <;> simp [hb]

theorem firstsBy_snoc (l : List α) (a : α) :
    firstsBy key (l ++ [a]) =
      if ∃ b ∈ l, key b = key a then firstsBy key l else firstsBy key l ++ [a] := by
  match l with
  | [] =>
    rw [if_neg (by simp), nil_append, firstsBy_cons]
    rfl
  | b :: l =>
    rw [cons_append, firstsBy_cons, firstsBy_cons, filter_snoc]
    by_cases hb : key b = key a
    · have hdup : ∃ c ∈ b :: l, key c = key a := ⟨b, mem_cons_self, hb⟩
      rw [if_neg (show ¬ decide (key a ≠ key b) = true by simp [hb]), if_pos hdup]
    · have hexists : (∃ c ∈ l.filter fun c => key c ≠ key b, key c = key a) ↔
          ∃ c ∈ b :: l, key c = key a := by
        constructor
        · rintro ⟨c, hc, hca⟩
          exact ⟨c, mem_cons_of_mem _ (mem_filter.mp hc).1, hca⟩
        · rintro ⟨c, hc, hca⟩
          rcases mem_cons.mp hc with rfl | hc
          · exact absurd hca hb
          · refine ⟨c, mem_filter.mpr ⟨hc, decide_eq_true fun hcb => ?_⟩, hca⟩
            exact hb (hcb.symm.trans hca)
      rw [if_pos (decide_eq_true (Ne.symm hb)), firstsBy_snoc, if_congr hexists rfl rfl]
      split_ifs
      · rfl
      · rfl
termination_by l.length
decreasing_by exact Nat.lt_succ_of_le (length_filter_le _ _)

theorem firstsBy_sublist (l : List α) : (firstsBy key l).Sublist l := by
  induction l using List.reverseRecOn with
  | nil => exact List.Sublist.refl _
  | append_singleton l a ih =>
    rw [firstsBy_snoc]
    split_ifs
    · exact ih.trans (sublist_append_left l [a])
    · exact ih.append (List.Sublist.refl _)

theorem nodup_firstsBy (l : List α) : ((firstsBy key l).map key).Nodup := by
  induction l using List.reverseRecOn with
  | nil => exact nodup_nil
  | append_singleton l a ih =>
    rw [firstsBy_snoc]
    split_ifs with hseen
    · exact ih
    · rw [map_append, nodup_append]
      refine ⟨ih, nodup_singleton _, fun x hx y hy hxy => ?_⟩
      obtain ⟨b, hb, rfl⟩ := mem_map.mp hx
      rw [map_singleton, mem_singleton] at hy
      exact hseen ⟨b, (firstsBy_sublist key l).subset hb, hxy.trans hy⟩

end Firsts

/-! ### What an assembly has to be -/

/-- The fragment may be taken. -/
def Eligible (request : ContextRequest) (f : ContextFragment sha) : Prop :=
  f.isExpired request.now = false ∧ f.trust ≠ .unverified ∧
    f.classification.rank ≤ request.classificationBoundary.rank

instance (request : ContextRequest) (f : ContextFragment sha) : Decidable (Eligible request f) :=
  inferInstanceAs (Decidable (_ ∧ _ ∧ _))

/-- Of the fragments that may be taken the first with each identifier. -/
def firsts (request : ContextRequest) (l : List (ContextFragment sha)) :
    List (ContextFragment sha) :=
  firstsBy ContextFragment.id (l.filter fun f => Eligible request f)

/-- The entry has the fragment, whole or shortened. -/
structure EntryOf (f : ContextFragment sha) (entry : ContextEntry) : Prop where
  id : entry.id = f.id
  source : entry.source = f.source
  trust : entry.trust = f.trust
  classification : entry.classification = f.classification
  whole : entry.compressed = false → entry.content = redact f ∧ entry.tokenCost = f.tokenCost
  shortened : entry.compressed = true →
    entry.content = (compress f entry.tokenCost).1 ∧ entry.tokenCost < f.tokenCost

/-- The entries have the fragments of the list, but for some without content. -/
def Covers (entries : List ContextEntry) (front : List (ContextFragment sha)) : Prop :=
  ∃ kept, kept.Sublist front ∧ (∀ f ∈ front, f ∉ kept → f.content = "") ∧
    List.Forall₂ EntryOf kept entries

/-- The assembly has a prefix of what may be taken, all of it if there is budget left, and accounts
for all fragments. -/
structure Budgeted (request : ContextRequest) (fragments : List (ContextFragment sha))
    (assembly : ContextAssembly) : Prop where
  nodup : (assembly.entries.map ContextEntry.id).Nodup
  included : assembly.receipt.includedIds = assembly.entries.map ContextEntry.id
  accounted : (assembly.receipt.includedIds ++ assembly.receipt.droppedIds).Perm
    (fragments.map ContextFragment.id)
  cost : (assembly.entries.map fun entry => entry.tokenCost.toNat).sum =
    assembly.receipt.tokenCost.toNat
  within : assembly.receipt.tokenCost ≤ request.tokenBudget
  eligible : ∀ entry ∈ assembly.entries, ∃ f ∈ fragments, Eligible request f ∧ EntryOf f entry
  ordered : (firsts request (sorted fragments)).Pairwise Precedes
  taken : ∃ front rest, firsts request (sorted fragments) = front ++ rest ∧
    Covers assembly.entries front ∧
    (∀ entry ∈ assembly.entries.dropLast, entry.compressed = false) ∧
    (assembly.receipt.tokenCost < request.tokenBudget →
      rest = [] ∧ ∀ entry ∈ assembly.entries, entry.compressed = false)

/-! ### One round of the loop -/

/-- What was assembled of the fragments that were seen. -/
structure Placed (request : ContextRequest) (seen : List (ContextFragment sha))
    (acc : Assembling) : Prop where
  ids : ∀ id, id ∈ acc.seen ↔ ∃ f ∈ seen.filter fun f => Eligible request f, f.id = id
  accounted : (acc.entries.map ContextEntry.id ++ acc.droppedIds).Perm
    (seen.map ContextFragment.id)
  cost : (acc.entries.map fun entry => entry.tokenCost.toNat).sum = acc.tokenCost.toNat
  within : acc.tokenCost ≤ request.tokenBudget
  taken : ∃ front rest, firsts request seen = front ++ rest ∧ Covers acc.entries front ∧
    (∀ entry ∈ acc.entries.dropLast, entry.compressed = false) ∧
    (acc.tokenCost < request.tokenBudget →
      rest = [] ∧ ∀ entry ∈ acc.entries, entry.compressed = false)

theorem placed_start (cacheable : Bool) :
    @Placed sha request [] ⟨∅, [], [], 0, cacheable⟩ where
  ids id := by simp
  accounted := List.Perm.refl _
  cost := rfl
  within := UInt32.le_iff_toNat_le.mpr (Nat.zero_le _)
  taken := by
    refine ⟨[], [], rfl, ⟨[], List.Sublist.refl _, ?_, List.Forall₂.nil⟩, ?_, fun _ => ⟨rfl, ?_⟩⟩
    · exact fun f hf => absurd hf not_mem_nil
    · exact fun entry hentry => absurd hentry not_mem_nil
    · exact fun entry hentry => absurd hentry not_mem_nil

theorem accounted_drop (h : Placed request seen acc) (f : ContextFragment sha) :
    ((acc.drop f.id).entries.map ContextEntry.id ++ (acc.drop f.id).droppedIds).Perm
      ((seen ++ [f]).map ContextFragment.id) := by
  show (acc.entries.map ContextEntry.id ++ (acc.droppedIds ++ [f.id])).Perm _
  rw [← append_assoc, map_append]
  exact h.accounted.append_right _

theorem accounted_push (h : Placed request seen acc) {entry : ContextEntry}
    (hid : entry.id = f.id) :
    ((acc.entries ++ [entry]).map ContextEntry.id ++ acc.droppedIds).Perm
      ((seen ++ [f]).map ContextFragment.id) := by
  rw [map_append, map_append, map_singleton, map_singleton, hid,
    append_assoc]
  have hswap : ([f.id] ++ acc.droppedIds).Perm (acc.droppedIds ++ [f.id]) := perm_append_comm
  refine (hswap.append_left _).trans ?_
  rw [← append_assoc]
  exact h.accounted.append_right _

/-- The fragment is not the first that may be taken with its identifier. -/
theorem Placed.skip (h : Placed request seen acc) (hskip : Eligible request f → f.id ∈ acc.seen) :
    Placed request (seen ++ [f]) (acc.drop f.id) where
  ids id := by
    show id ∈ acc.seen ↔ _
    rw [h.ids, filter_snoc]
    split_ifs with helig
    · simp only [mem_append, or_and_right, exists_or]
      refine ⟨Or.inl, fun hor => hor.elim (fun hl => hl) ?_⟩
      rintro ⟨g, hg, rfl⟩
      rw [mem_singleton.mp hg]
      exact (h.ids f.id).mp (hskip (of_decide_eq_true helig))
    · rfl
  accounted := accounted_drop h f
  cost := h.cost
  within := h.within
  taken := by
    have hfirsts : firsts request (seen ++ [f]) = firsts request seen := by
      unfold firsts
      rw [filter_snoc]
      split_ifs with helig
      · rw [firstsBy_snoc, if_pos ((h.ids f.id).mp (hskip (of_decide_eq_true helig)))]
      · rfl
    rw [hfirsts]
    exact h.taken

/-- The fragment is the next of the first occurrences. -/
structure Next (request : ContextRequest) (acc : Assembling) (f : ContextFragment sha) : Prop where
  eligible : Eligible request f
  fresh : f.id ∉ acc.seen

theorem firsts_next (h : Placed request seen acc) (hnext : Next request acc f) :
    firsts request (seen ++ [f]) = firsts request seen ++ [f] := by
  unfold firsts
  rw [filter_snoc, if_pos (decide_eq_true hnext.eligible), firstsBy_snoc,
    if_neg fun hseen => hnext.fresh ((h.ids f.id).mpr hseen)]

theorem ids_next (h : Placed request seen acc) (hnext : Next request acc f) (id : String) :
    id ∈ insert f.id acc.seen ↔
      ∃ g ∈ (seen ++ [f]).filter fun g => Eligible request g, g.id = id := by
  rw [Finset.mem_insert, h.ids, filter_snoc, if_pos (decide_eq_true hnext.eligible), or_comm]
  simp only [mem_append, mem_singleton, or_and_right, exists_or, exists_eq_left,
    @eq_comm _ id]

theorem Placed.exhausted (h : Placed request seen acc) (hnext : Next request acc f)
    (hspent : ¬ acc.tokenCost < request.tokenBudget) :
    Placed request (seen ++ [f])
      (Assembling.drop { acc with seen := insert f.id acc.seen } f.id) where
  ids := ids_next h hnext
  accounted := accounted_drop h f
  cost := h.cost
  within := h.within
  taken := by
    obtain ⟨front, rest, hfirsts, hcovers, hlast, -⟩ := h.taken
    refine ⟨front, rest ++ [f], ?_, hcovers, hlast, fun hlt => absurd hlt hspent⟩
    rw [firsts_next h hnext, hfirsts, append_assoc]

theorem Placed.empty (h : Placed request seen acc) (hnext : Next request acc f)
    (hopen : acc.tokenCost < request.tokenBudget) (hempty : f.content = "") :
    Placed request (seen ++ [f])
      (Assembling.drop { acc with seen := insert f.id acc.seen } f.id) where
  ids := ids_next h hnext
  accounted := accounted_drop h f
  cost := h.cost
  within := h.within
  taken := by
    obtain ⟨front, rest, hfirsts, ⟨kept, hsub, hskipped, hentries⟩, hlast, hwhole⟩ := h.taken
    obtain ⟨rfl, hall⟩ := hwhole hopen
    rw [append_nil] at hfirsts
    refine ⟨front ++ [f], [], ?_, ⟨kept, ?_, ?_, hentries⟩, hlast, fun _ => ⟨rfl, hall⟩⟩
    · rw [firsts_next h hnext, hfirsts, append_nil]
    · exact hsub.trans (sublist_append_left front [f])
    · intro g hg hout
      rcases mem_append.mp hg with hg | hg
      · exact hskipped g hg hout
      · rw [mem_singleton.mp hg]
        exact hempty

/-- The fragment is taken; it is shortened only where that spends the budget. -/
theorem Placed.push (h : Placed request seen acc) (hnext : Next request acc f)
    (hopen : acc.tokenCost < request.tokenBudget) {entry : ContextEntry} (hentry : EntryOf f entry)
    (hcost : acc.tokenCost.toNat + entry.tokenCost.toNat ≤ request.tokenBudget.toNat)
    (hspent : entry.compressed = true →
      acc.tokenCost.toNat + entry.tokenCost.toNat = request.tokenBudget.toNat)
    (cacheable : Bool) :
    Placed request (seen ++ [f]) ⟨insert f.id acc.seen, acc.droppedIds, acc.entries ++ [entry],
        acc.tokenCost + entry.tokenCost, cacheable⟩ := by
  have hbudget := request.tokenBudget.toNat_lt
  have hsum : (acc.tokenCost + entry.tokenCost).toNat =
      acc.tokenCost.toNat + entry.tokenCost.toNat := by
    rw [UInt32.toNat_add, Nat.mod_eq_of_lt (by omega)]
  obtain ⟨front, rest, hfirsts, ⟨kept, hsub, hskipped, hentries⟩, -, hwhole⟩ := h.taken
  obtain ⟨rfl, hall⟩ := hwhole hopen
  rw [append_nil] at hfirsts
  refine ⟨ids_next h hnext, accounted_push h hentry.id, ?_, ?_, front ++ [f], [], ?_,
    ⟨kept ++ [f], ?_, ?_, ?_⟩, ?_, fun hlt => ⟨rfl, ?_⟩⟩
  · rw [map_append, sum_append, h.cost, hsum, map_singleton, sum_singleton]
  · rw [UInt32.le_iff_toNat_le, hsum]
    exact hcost
  · rw [firsts_next h hnext, hfirsts, append_nil]
  · exact hsub.append (List.Sublist.refl _)
  · intro g hg hout
    rcases mem_append.mp hg with hg | hg
    · exact hskipped g hg fun hkept => hout (mem_append_left _ hkept)
    · exact absurd (mem_append_right _ hg) hout
  · exact rel_append hentries (List.Forall₂.cons hentry List.Forall₂.nil)
  · rw [dropLast_concat]
    exact hall
  · intro e he
    rcases mem_append.mp he with he | he
    · exact hall e he
    · rw [mem_singleton.mp he, ← Bool.not_eq_true]
      intro hcompressed
      rw [UInt32.lt_iff_toNat_lt, hsum, hspent hcompressed] at hlt
      exact absurd hlt (Nat.lt_irrefl _)

/-- What is left of the budget is not wasted on a fragment with content. -/
theorem compress_cost (f : ContextFragment sha) {remaining : UInt32} (hremaining : remaining ≠ 0) :
    ((compress f remaining).2 = 0 ∧ f.content = "") ∨ (compress f remaining).2 = remaining := by
  have hchars : remaining.toNat * compressionCharsPerToken ≠ 0 := by
    have hpos : remaining.toNat ≠ 0 := fun hzero => hremaining (UInt32.toNat_inj.mp hzero)
    exact Nat.mul_ne_zero hpos (by decide)
  have hempty : ∀ content taken : String,
      taken = String.ofList (content.toList.take (remaining.toNat * compressionCharsPerToken)) →
      (if taken.utf8ByteSize < content.utf8ByteSize then taken.push '…' else taken).isEmpty →
      content = "" := by
    rintro content taken rfl hshort
    split_ifs at hshort with hcut
    · rw [String.isEmpty_iff] at hshort
      exact absurd hshort (String.push_ne_empty)
    · rw [String.isEmpty_iff, String.ofList_eq_empty_iff, take_eq_nil_iff] at hshort
      rw [← String.toList_eq_nil_iff]
      exact hshort.resolve_left hchars
  have hredacted := hempty (redact f) _ rfl
  unfold compress
  rw [if_neg hremaining]
  dsimp only
  generalize (if String.utf8ByteSize _ < _ then _ else _) = shortened at hredacted ⊢
  by_cases hshort : shortened.isEmpty = true
  · rw [if_pos hshort]
    refine Or.inl ⟨rfl, ?_⟩
    have hcontent := hredacted hshort
    unfold redact at hcontent
    split_ifs at hcontent with hsecret
    · exact absurd hcontent (by decide)
    · exact hcontent
  · rw [if_neg hshort]
    exact Or.inr rfl

theorem orError_some_bind {ε α β : Type} (e : ε) (a : α) (g : α → Except ε β) :
    (orError (some a) e >>= g) = g a := rfl

/-- **One round of the loop** does not fail. -/
theorem place_placed (h : Placed request seen acc) (f : ContextFragment sha) :
    ∃ acc', place request acc f = .ok acc' ∧ Placed request (seen ++ [f]) acc' := by
  unfold place
  by_cases helig : Eligible request f
  · obtain ⟨hexpired, htrust, hrank⟩ := helig
    rw [if_neg (by rw [hexpired]; simp [htrust, Nat.not_lt.mpr hrank])]
    by_cases hseen : f.id ∈ acc.seen
    · rw [if_pos hseen]
      exact ⟨_, rfl, h.skip fun _ => hseen⟩
    · have hnext : Next request acc f := ⟨⟨hexpired, htrust, hrank⟩, hseen⟩
      have hleft : (request.tokenBudget - acc.tokenCost).toNat =
          request.tokenBudget.toNat - acc.tokenCost.toNat := UInt32.toNat_sub_of_le _ _ h.within
      have hwithin := UInt32.le_iff_toNat_le.mp h.within
      have hbudget := request.tokenBudget.toNat_lt
      rw [if_neg hseen]
      unfold checkedSubU32
      dsimp only
      rw [if_pos h.within]
      by_cases hspent : request.tokenBudget - acc.tokenCost = 0
      · refine ⟨_, if_pos hspent, h.exhausted hnext fun hlt => ?_⟩
        have hzero := congrArg UInt32.toNat hspent
        rw [hleft, UInt32.toNat_zero] at hzero
        have hlt' := UInt32.lt_iff_toNat_lt.mp hlt
        omega
      · have hopen : acc.tokenCost < request.tokenBudget := by
          rw [UInt32.lt_iff_toNat_lt]
          by_contra hge
          refine hspent (UInt32.toNat_inj.mp ?_)
          rw [hleft, UInt32.toNat_zero]
          omega
        have hpush : ∀ (entry : ContextEntry), EntryOf f entry →
            entry.tokenCost ≤ request.tokenBudget - acc.tokenCost →
            (entry.compressed = true → entry.tokenCost = request.tokenBudget - acc.tokenCost) →
            ∃ acc', Assembling.push { acc with seen := insert f.id acc.seen } f entry.content
              entry.tokenCost entry.compressed = .ok acc' ∧ Placed request (seen ++ [f]) acc' := by
          intro entry hentry hle hall
          have hcost := UInt32.le_iff_toNat_le.mp hle
          rw [hleft] at hcost
          have hfits : acc.tokenCost.toNat + entry.tokenCost.toNat < 2 ^ 32 := by omega
          refine ⟨_, ?_, h.push hnext hopen hentry (by omega) (fun hcompressed => ?_)
            (acc.cacheable && f.classification.cacheable)⟩
          · unfold Assembling.push checkedAddU32
            rw [if_pos hfits, ← hentry.id, ← hentry.source, ← hentry.trust, ← hentry.classification]
            rfl
          · rw [hall hcompressed, hleft]
            omega
        simp only [orError_some_bind, if_neg hspent]
        by_cases hfull : f.tokenCost ≤ request.tokenBudget - acc.tokenCost
        · rw [if_pos hfull]
          exact hpush ⟨f.id, f.source, f.trust, f.classification, redact f, f.tokenCost, false⟩
            ⟨rfl, rfl, rfl, rfl, fun _ => ⟨rfl, rfl⟩, nofun⟩ hfull nofun
        · rw [if_neg hfull]
          rcases compress_cost f hspent with ⟨hzero, hempty⟩ | hall
          · exact ⟨_, if_pos hzero, h.empty hnext hopen hempty⟩
          · have hcost : (compress f (request.tokenBudget - acc.tokenCost)).2 ≠ 0 := by
              rw [hall]
              exact hspent
            rw [if_neg hcost]
            refine hpush ⟨f.id, f.source, f.trust, f.classification, _, _, true⟩
              ⟨rfl, rfl, rfl, rfl, nofun, fun _ => ⟨?_, ?_⟩⟩ ?_ fun _ => hall
            · exact congrArg (fun cost => (compress f cost).1) hall.symm
            · show (compress f (request.tokenBudget - acc.tokenCost)).2 < f.tokenCost
              rw [hall]
              exact UInt32.not_le.mp hfull
            · show (compress f (request.tokenBudget - acc.tokenCost)).2 ≤ _
              rw [hall]
              exact UInt32.le_refl _
  · refine ⟨_, if_pos ?_, h.skip fun helig' => absurd helig' helig⟩
    unfold Eligible at helig
    by_contra hnot
    rw [not_or, not_or, Bool.not_eq_true, Nat.not_lt] at hnot
    exact helig hnot

theorem foldlM_placed (l seen : List (ContextFragment sha)) (acc : Assembling)
    (h : Placed request seen acc) :
    ∃ acc', l.foldlM (place request) acc = .ok acc' ∧ Placed request (seen ++ l) acc' := by
  induction l generalizing seen acc with
  | nil => exact ⟨acc, rfl, by rwa [append_nil]⟩
  | cons f l ih =>
    obtain ⟨next, hplace, hnext⟩ := place_placed h f
    obtain ⟨last, hrest, hlast⟩ := ih (seen ++ [f]) next hnext
    refine ⟨last, ?_, by rwa [append_assoc] at hlast⟩
    rw [foldlM_cons, hplace, ok_bind, hrest]

/-! ### The order of the fragments -/

theorem precedes_total (a b : ContextFragment sha) : Precedes a b ∨ Precedes b a := by
  unfold Precedes
  rcases Nat.lt_trichotomy (sourceRank a.source) (sourceRank b.source) with hlt | heq | hgt
  · exact Or.inl (Or.inl hlt)
  · rcases Nat.lt_trichotomy a.priority.toNat b.priority.toNat with hless | hsame | hmore
    · exact Or.inr (Or.inr ⟨heq.symm, Or.inl (UInt8.lt_iff_toNat_lt.mpr hless)⟩)
    · have hpriority := UInt8.toNat_inj.mp hsame
      rcases le_total a.id b.id with hid | hid
      · exact Or.inl (Or.inr ⟨heq, Or.inr ⟨hpriority, hid⟩⟩)
      · exact Or.inr (Or.inr ⟨heq.symm, Or.inr ⟨hpriority.symm, hid⟩⟩)
    · exact Or.inl (Or.inr ⟨heq, Or.inl (UInt8.lt_iff_toNat_lt.mpr hmore)⟩)
  · exact Or.inr (Or.inl hgt)

theorem precedes_trans (a b c : ContextFragment sha) (hab : Precedes a b) (hbc : Precedes b c) :
    Precedes a c := by
  rcases hab with hab | ⟨hab, hab'⟩
  · rcases hbc with hbc | ⟨hbc, -⟩
    · exact Or.inl (hab.trans hbc)
    · exact Or.inl (hbc ▸ hab)
  · rcases hbc with hbc | ⟨hbc, hbc'⟩
    · exact Or.inl (hab ▸ hbc)
    · refine Or.inr ⟨hab.trans hbc, ?_⟩
      rcases hab' with hless | ⟨hsame, hid⟩
      · rcases hbc' with hless' | ⟨hsame', -⟩
        · exact Or.inl (UInt8.lt_trans hless' hless)
        · exact Or.inl (hsame' ▸ hless)
      · rcases hbc' with hless' | ⟨hsame', hid'⟩
        · exact Or.inl (hsame ▸ hless')
        · exact Or.inr ⟨hsame.trans hsame', hid.trans hid'⟩

instance : Std.Total (@Precedes sha) := ⟨precedes_total⟩

instance : IsTrans (ContextFragment sha) Precedes := ⟨precedes_trans⟩

theorem firsts_sublist (request : ContextRequest) (l : List (ContextFragment sha)) :
    (firsts request l).Sublist l :=
  (firstsBy_sublist _ _).trans filter_sublist

theorem mem_firsts (hf : f ∈ firsts request (sorted fragments)) :
    f ∈ fragments ∧ Eligible request f := by
  have hfilter := (firstsBy_sublist _ _).subset hf
  obtain ⟨hmem, helig⟩ := mem_filter.mp hfilter
  exact ⟨(mem_insertionSort _).mp hmem, of_decide_eq_true helig⟩

theorem pairwise_firsts (request : ContextRequest) (fragments : List (ContextFragment sha)) :
    (firsts request (sorted fragments)).Pairwise Precedes :=
  (pairwise_insertionSort Precedes fragments).sublist (firsts_sublist request _)

/-! ### Assemblies -/

theorem entries_ids {kept : List (ContextFragment sha)} {entries : List ContextEntry}
    (h : List.Forall₂ EntryOf kept entries) :
    entries.map ContextEntry.id = kept.map ContextFragment.id := by
  induction h with
  | nil => rfl
  | cons hentry _ ih => rw [map_cons, map_cons, hentry.id, ih]

/-- **What is assembled** without the caches. -/
theorem build_budgeted (request : ContextRequest) (fragments : List (ContextFragment sha)) :
    ∃ assembly, build request (sorted fragments) = .ok assembly ∧
      Budgeted request fragments assembly := by
  obtain ⟨acc, hloop, hplaced⟩ := foldlM_placed (sorted fragments) [] _
    (@placed_start sha request (cacheCandidate (sorted fragments)))
  rw [nil_append] at hplaced
  obtain ⟨front, rest, hfirsts, hcovers, hlast⟩ := hplaced.taken
  obtain ⟨kept, hsub, hskipped, hentries⟩ := hcovers
  have hkept : kept.Sublist (firsts request (sorted fragments)) := by
    rw [hfirsts]
    exact hsub.trans (sublist_append_left front rest)
  unfold build
  dsimp only
  rw [hloop, ok_bind]
  refine ⟨_, rfl, ?_, rfl, ?_, hplaced.cost, hplaced.within, fun entry hentry => ?_,
    pairwise_firsts request fragments, front, rest, hfirsts, ⟨kept, hsub, hskipped, hentries⟩,
    hlast⟩
  · show (acc.entries.map ContextEntry.id).Nodup
    rw [entries_ids hentries]
    exact (nodup_firstsBy ContextFragment.id _).sublist (hkept.map _)
  · exact hplaced.accounted.trans ((perm_insertionSort _ _).map _)
  · obtain ⟨g, hg, hof⟩ : ∃ g ∈ kept, EntryOf g entry := by
      obtain ⟨i, hi, rfl⟩ := getElem_of_mem hentry
      have hi' : i < kept.length := hentries.length_eq ▸ hi
      exact ⟨kept[i], getElem_mem hi', hentries.get hi' hi⟩
    obtain ⟨hmem, helig⟩ := mem_firsts (hkept.subset hg)
    exact ⟨g, hmem, helig, hof⟩

theorem Budgeted.of_content {assembly assembly' : ContextAssembly}
    (h : Budgeted request fragments assembly)
    (hcontent : ContextAssembly.content assembly' = ContextAssembly.content assembly) :
    Budgeted request fragments assembly' := by
  have hentries : assembly'.entries = assembly.entries :=
    congrArg (fun a => a.entries) hcontent
  have hincluded : assembly'.receipt.includedIds = assembly.receipt.includedIds :=
    congrArg (fun a => a.receipt.includedIds) hcontent
  have hdropped : assembly'.receipt.droppedIds = assembly.receipt.droppedIds :=
    congrArg (fun a => a.receipt.droppedIds) hcontent
  have hcost : assembly'.receipt.tokenCost = assembly.receipt.tokenCost :=
    congrArg (fun a => a.receipt.tokenCost) hcontent
  exact {
    nodup := hentries ▸ h.nodup
    included := by rw [hincluded, hentries, h.included]
    accounted := by rw [hincluded, hdropped]; exact h.accounted
    cost := by rw [hentries, hcost, h.cost]
    within := hcost ▸ h.within
    eligible := by rw [hentries]; exact h.eligible
    ordered := h.ordered
    taken := by rw [hentries, hcost]; exact h.taken }

/-- **Context budgeting is a priority prefix**: without a cache, and for every call of a sequence
that may be answered from one. -/
theorem context_budgeted :
    (∀ (env : ContextEnv) (access : FileAccess) (request : ContextRequest)
      (fragments : List (ContextFragment sha)), ∃ assembly,
        (assemble env ContextEngine.new access request fragments).2 = .ok assembly ∧
          Budgeted request fragments assembly) ∧
    ∀ (env : ContextEnv) (events : List (Event sha)) (engine : ContextEngine), Faithful env →
      Set.InjOn sha (Hashed (Asked events)) →
      engine = ContextEngine.new ∨ engine = ContextEngine.open →
      ∀ k access request fragments result,
        (machine env sha).Answers engine events k (.assemble access request fragments)
          (some result) →
        ∃ assembly, result = .ok assembly ∧ Budgeted request fragments assembly := by
  refine ⟨fun env access request fragments => ?_, ?_⟩
  · rw [assemble_new]
    exact build_budgeted request fragments
  · intro env events engine hfaithful hsha hengine k access request fragments result hanswer
    obtain ⟨made, hmade, hbudgeted⟩ := build_budgeted request fragments
    have hcontent := answer_content hfaithful events hsha hengine hanswer
    rw [hmade] at hcontent
    rcases result with e | assembly
    · cases hcontent
    · exact ⟨assembly, rfl, hbudgeted.of_content (Except.ok.inj hcontent)⟩

/-- A fragment of the same content and cost as the first, and of lower priority. -/
def lowerFragment (id : String) (priority : UInt8) (hid : id.utf8ByteSize ≤ 4096) :
    ContextFragment sampleSha :=
  { sampleFragment with id, priority, idShort := hid }

def threeFragments : List (ContextFragment sampleSha) :=
  [lowerFragment "notes" 10 (by decide), lowerFragment "policy" 50 (by decide), sampleFragment]

/-- The budget is more than the cost of one fragment and less than that of two. -/
def tightRequest (now : UInt64) : ContextRequest := { sampleRequest now with tokenBudget := 8 }

def tightEvents : List (Event sampleSha) :=
  [.assemble ⟨true, true, true⟩ (tightRequest 1000) threeFragments,
    .assemble ⟨true, true, true⟩ (tightRequest 1999) threeFragments]

theorem context_budgeted_hit :
    ∃ assembly, (assemble sampleEnv
      ((machine sampleEnv sampleSha).run .new (tightEvents.take 1)) ⟨true, true, true⟩
      (tightRequest 1999) threeFragments).2 = .ok assembly ∧
      Budgeted (tightRequest 1999) threeFragments assembly := by
  have hfaithful : Faithful sampleEnv := by
    intro file bytes hwrite
    cases hwrite
  have hsha : Set.InjOn sampleSha (Hashed (Asked tightEvents)) := by
    refine @sampleSha_injOn _ threeFragments (fun access request asked hmem => ?_)
      (by simp [threeFragments, lowerFragment]) (by decide +kernel)
    simp only [tightEvents, mem_cons, Event.assemble.injEq, not_mem_nil, or_false] at hmem
    exact hmem.elim (·.2.2) (·.2.2)
  refine context_budgeted.2 sampleEnv tightEvents .new hfaithful hsha (Or.inl rfl) 1
    ⟨true, true, true⟩ (tightRequest 1999) threeFragments _ ⟨rfl, ?_⟩
  change (exec _ _ _).2 = _
  rw [exec_assemble]

end Pandora.Context.Budget
