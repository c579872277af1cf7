import Pandora.Lsp.Session

/-! # Answers reach their requests

In an orderly session (`Orderly`) every request is answered at most once, by a message without a
method that bears its id or by the end of the session, and a request that has returned has left no
entry in the map. As long as the ids are not used up, a session stays orderly exactly if the server
never sends a request with an id that is pending here, and no write fails while the entry of its
request is in the map (`answers_reach_iff`).

The invariant that a step keeps is `Inv`: an entry belongs to a call that waits, and a call that was
answered has none. -/

namespace Pandora.Lsp

open Lib.Runs Lib.SortedMaps List Function

/-- The call has an entry in the map, or had one. -/
def Phase.Entered : Phase → Prop
  | registered _ => True
  | waiting _ => True
  | returned (some _) _ => True
  | _ => False

/-- The call may have an entry in the map. -/
def Phase.Waits : Phase → Prop
  | registered _ => True
  | waiting _ => True
  | _ => False

theorem Phase.Waits.entered {phase : Phase} (h : phase.Waits) : phase.Entered := by
  cases phase with
  | registered | waiting => trivial
  | checked | numbered | returned => cases h

namespace Session

def phase? (s : Session) (r : ℕ) : Option Phase := (s.calls r).map (·.2)

/-- The id that a call has drawn. -/
def idOf (s : Session) (r : ℕ) : Option ℕ := (s.phase? r).bind Phase.id?

/-- What holds in every state of the session. -/
structure Orderly (text : Json → String) (s : Session) : Prop where
  once : (s.answers.map Prod.fst).Nodup
  byResponse : ∀ r message, (r, .response message) ∈ s.answers →
    message.get? "method" = none ∧ ∃ id, message.id? = some id ∧ s.idOf r = some id
  returned : ∀ r arguments id outcome, s.calls r = some (arguments, .returned id outcome) →
    (∃ cause, (r, cause) ∈ s.answers ∧ outcome.result arguments = cause.result text) ∨
      outcome = .timedOut ∨ (∃ error, outcome = .writeFailed error) ∨ outcome = .refused
  gone : ∀ r id outcome, s.phase? r = some (.returned (some id) outcome) →
    s.pending.get? id = none

/-- The invariant of a step. -/
structure Inv (text : Json → String) (s : Session) : Prop where
  fresh : ∀ r id, s.idOf r = some id → id < s.nextId
  apart : ∀ r r' id, s.idOf r = some id → s.idOf r' = some id → r = r'
  pending : ∀ id r, s.pending.get? id = some r →
    s.idOf r = some id ∧ ∃ phase, s.phase? r = some phase ∧ phase.Waits
  answered : ∀ r cause, (r, cause) ∈ s.answers →
    (∀ id, s.pending.get? id ≠ some r) ∧ ∃ phase, s.phase? r = some phase ∧ phase.Entered
  once : (s.answers.map Prod.fst).Nodup
  byResponse : ∀ r message, (r, .response message) ∈ s.answers →
    message.get? "method" = none ∧ ∃ id, message.id? = some id ∧ s.idOf r = some id
  channel : ∀ r result, result ∈ s.channel r →
    ∃ cause, (r, cause) ∈ s.answers ∧ result = cause.result text
  received : ∀ r id result, s.phase? r = some (.returned id (.received result)) →
    ∃ cause, (r, cause) ∈ s.answers ∧ result = cause.result text

variable {text : Json → String} {s : Session}

theorem inv_start : Inv text start where
  fresh r id h := by cases h
  apart r r' id h := by cases h
  pending id r h := by cases h
  answered r cause h := absurd h not_mem_nil
  once := nodup_nil
  byResponse r message h := absurd h not_mem_nil
  channel r result h := absurd h not_mem_nil
  received r id result h := by cases h

theorem Inv.orderly (h : Inv text s) : Orderly text s where
  once := h.once
  byResponse := h.byResponse
  returned r arguments id outcome hcall := by
    cases outcome with
    | refused => exact Or.inr (Or.inr (Or.inr rfl))
    | writeFailed error => exact Or.inr (Or.inr (Or.inl ⟨error, rfl⟩))
    | timedOut => exact Or.inr (Or.inl rfl)
    | received result =>
      refine Or.inl (h.received r id result ?_)
      unfold phase?
      rw [hcall]
      rfl
  gone r id outcome hphase := by
    by_contra hentry
    obtain ⟨r', hr'⟩ := Option.ne_none_iff_exists'.mp hentry
    obtain ⟨hid', phase', hphase', hwaits⟩ := h.pending id r' hr'
    have hid : s.idOf r = some id := by
      unfold idOf
      rw [hphase]
      rfl
    obtain rfl := h.apart r r' id hid hid'
    rw [hphase] at hphase'
    obtain rfl := Option.some.inj hphase'
    cases hwaits

/-! ### Moves of a call -/

theorem phase?_setPhase (r r' : ℕ) (arguments : Arguments) (phase : Phase) :
    (s.setPhase r arguments phase).phase? r' = if r' = r then some phase else s.phase? r' := by
  unfold phase? setPhase
  dsimp only
  by_cases hr : r' = r
  · rw [if_pos hr, hr, update_self]
    rfl
  · rw [if_neg hr, update_of_ne hr]

theorem idOf_setPhase (r r' : ℕ) (arguments : Arguments) (phase : Phase) :
    (s.setPhase r arguments phase).idOf r' = if r' = r then phase.id? else s.idOf r' := by
  unfold idOf
  rw [phase?_setPhase]
  split_ifs
  · rfl
  · rfl

theorem Inv.restrict (h : Inv text s) {pending : SortedMap ℕ ℕ}
    (hsub : ∀ id r, pending.get? id = some r → s.pending.get? id = some r) :
    Inv text { s with pending } where
  fresh := h.fresh
  apart := h.apart
  pending id r hentry := h.pending id r (hsub id r hentry)
  answered r cause hanswer := by
    obtain ⟨hnone, hentered⟩ := h.answered r cause hanswer
    exact ⟨fun id hentry => hnone id (hsub id r hentry), hentered⟩
  once := h.once
  byResponse := h.byResponse
  channel := h.channel
  received := h.received

theorem Inv.move (h : Inv text s) {r : ℕ} {arguments : Arguments} {phase phase' : Phase}
    (hcall : s.calls r = some (arguments, phase)) (hid : phase'.id? = phase.id?)
    (hentered : phase.Entered → phase'.Entered)
    (hwaits : phase'.Waits ∨ ∀ id, s.pending.get? id ≠ some r)
    (hreceived : ∀ id result, phase' = .returned id (.received result) →
      ∃ cause, (r, cause) ∈ s.answers ∧ result = cause.result text) :
    Inv text (s.setPhase r arguments phase') := by
  have hphase : s.phase? r = some phase := by
    unfold phase?
    rw [hcall]
    rfl
  have hidOf : ∀ r', (s.setPhase r arguments phase').idOf r' = s.idOf r' := by
    intro r'
    rw [idOf_setPhase]
    split_ifs with hr
    · rw [hid, hr]
      unfold idOf
      rw [hphase]
      rfl
    · rfl
  refine ⟨?_, ?_, ?_, ?_, h.once, ?_, h.channel, ?_⟩
  · intro r' id hr'
    rw [hidOf] at hr'
    exact h.fresh r' id hr'
  · intro r' r'' id hr' hr''
    rw [hidOf] at hr' hr''
    exact h.apart r' r'' id hr' hr''
  · intro id r' hentry
    obtain ⟨hid', phase'', hphase'', hwaits'⟩ := h.pending id r' hentry
    rw [hidOf, phase?_setPhase]
    refine ⟨hid', ?_⟩
    by_cases hr : r' = r
    · rw [if_pos hr]
      rcases hwaits with hwaits | hnone
      · exact ⟨phase', rfl, hwaits⟩
      · exact absurd (hr ▸ hentry) (hnone id)
    · rw [if_neg hr]
      exact ⟨phase'', hphase'', hwaits'⟩
  · intro r' cause hanswer
    obtain ⟨hnone, phase'', hphase'', hentered'⟩ := h.answered r' cause hanswer
    refine ⟨hnone, ?_⟩
    rw [phase?_setPhase]
    by_cases hr : r' = r
    · rw [if_pos hr]
      rw [hr, hphase] at hphase''
      obtain rfl := Option.some.inj hphase''
      exact ⟨phase', rfl, hentered hentered'⟩
    · rw [if_neg hr]
      exact ⟨phase'', hphase'', hentered'⟩
  · intro r' message hanswer
    rw [hidOf]
    exact h.byResponse r' message hanswer
  · intro r' id result hr'
    rw [phase?_setPhase] at hr'
    split_ifs at hr' with hr
    · obtain ⟨cause, hanswer, hresult⟩ := hreceived id result (Option.some.inj hr')
      exact ⟨cause, hr ▸ hanswer, hresult⟩
    · exact h.received r' id result hr'

theorem Inv.send (h : Inv text s) {r : ℕ} {cause : Cause}
    (hnone : ∀ id, s.pending.get? id ≠ some r) (hnew : ∀ cause, (r, cause) ∉ s.answers)
    (hentered : ∃ phase, s.phase? r = some phase ∧ phase.Entered)
    (hcause : ∀ message, cause = .response message →
      message.get? "method" = none ∧ ∃ id, message.id? = some id ∧ s.idOf r = some id) :
    Inv text (s.send text r cause) := by
  have hmem : ∀ r' cause', (r', cause') ∈ (s.send text r cause).answers ↔
      (r', cause') ∈ s.answers ∨ r' = r ∧ cause' = cause := by
    intro r' cause'
    show (r', cause') ∈ s.answers ++ [(r, cause)] ↔ _
    rw [mem_append, mem_singleton, Prod.mk.injEq]
  refine ⟨h.fresh, h.apart, h.pending, ?_, ?_, ?_, ?_, ?_⟩
  · intro r' cause' hanswer
    rcases (hmem r' cause').mp hanswer with hanswer | ⟨rfl, -⟩
    · exact h.answered r' cause' hanswer
    · exact ⟨hnone, hentered⟩
  · show ((s.answers ++ [(r, cause)]).map Prod.fst).Nodup
    rw [map_append, nodup_append]
    refine ⟨h.once, nodup_singleton r, ?_⟩
    intro a ha b hb
    obtain ⟨⟨r', cause'⟩, hanswer, rfl⟩ := List.mem_map.mp ha
    rw [map_singleton, mem_singleton] at hb
    rintro rfl
    have hr : r' = r := hb
    exact hnew cause' (hr ▸ hanswer)
  · intro r' message hanswer
    rcases (hmem r' _).mp hanswer with hanswer | ⟨rfl, hsame⟩
    · exact h.byResponse r' message hanswer
    · exact hcause message hsame.symm
  · intro r' result hresult
    have hchannel : (s.send text r cause).channel r' =
        if r' = r then s.channel r ++ [cause.result text] else s.channel r' := by
      show Function.update s.channel r _ r' = _
      by_cases hr : r' = r
      · rw [hr, update_self, if_pos rfl]
      · rw [update_of_ne hr, if_neg hr]
    rw [hchannel] at hresult
    split_ifs at hresult with hr
    · rcases List.mem_append.mp hresult with hold | hlast
      · obtain ⟨cause', hanswer, hsame⟩ := h.channel r result hold
        exact ⟨cause', (hmem r' cause').mpr (Or.inl (hr ▸ hanswer)), hsame⟩
      · exact ⟨cause, (hmem r' cause).mpr (Or.inr ⟨hr, rfl⟩), List.mem_singleton.mp hlast⟩
    · obtain ⟨cause', hanswer, hsame⟩ := h.channel r' result hresult
      exact ⟨cause', (hmem r' cause').mpr (Or.inl hanswer), hsame⟩
  · intro r' id result hphase
    obtain ⟨cause', hanswer, hsame⟩ := h.received r' id result hphase
    exact ⟨cause', (hmem r' cause').mpr (Or.inl hanswer), hsame⟩

/-! ### Steps -/

theorem phase?_of_call {r : ℕ} {arguments : Arguments} {phase : Phase}
    (hcall : s.calls r = some (arguments, phase)) : s.phase? r = some phase := by
  unfold phase?
  rw [hcall]
  rfl

theorem idOf_of_call {r : ℕ} {arguments : Arguments} {phase : Phase}
    (hcall : s.calls r = some (arguments, phase)) : s.idOf r = phase.id? := by
  unfold idOf
  rw [phase?_of_call hcall]
  rfl

theorem Inv.absent (h : Inv text s) {r : ℕ} (hid : s.idOf r = none) :
    (∀ id, s.pending.get? id ≠ some r) ∧ ∀ cause, (r, cause) ∉ s.answers := by
  refine ⟨?_, ?_⟩
  · intro id hentry
    rw [(h.pending id r hentry).1] at hid
    cases hid
  · intro cause hanswer
    obtain ⟨-, phase, hphase, hentered⟩ := h.answered r cause hanswer
    unfold idOf at hid
    rw [hphase] at hid
    cases phase with
    | checked => cases hentered
    | numbered | registered | waiting => cases hid
    | returned id outcome =>
      cases id with
      | none => cases hentered
      | some id => cases hid

theorem Inv.start_call (h : Inv text s) {r nextId : ℕ} {arguments : Arguments} {phase : Phase}
    (hid : s.idOf r = none) (hnext : s.nextId ≤ nextId)
    (hphase : ∀ id, phase.id? = some id → id = s.nextId ∧ id < nextId)
    (hwaits : ∀ id result, phase ≠ .returned id (.received result)) :
    Inv text { s.setPhase r arguments phase with nextId } := by
  obtain ⟨hnone, hnew⟩ := h.absent hid
  have hidOf : ∀ r' id, (s.setPhase r arguments phase).idOf r' = some id →
      s.idOf r' = some id ∨ r' = r ∧ id = s.nextId ∧ id < nextId := by
    intro r' id hr'
    rw [idOf_setPhase] at hr'
    split_ifs at hr' with hr
    · exact Or.inr ⟨hr, hphase id hr'⟩
    · exact Or.inl hr'
  refine ⟨?_, ?_, ?_, ?_, h.once, ?_, h.channel, ?_⟩
  · intro r' id hr'
    rcases hidOf r' id hr' with hr' | ⟨-, -, hlt⟩
    · exact Nat.lt_of_lt_of_le (h.fresh r' id hr') hnext
    · exact hlt
  · intro r' r'' id hr' hr''
    rcases hidOf r' id hr' with hr' | ⟨hr', hlast, -⟩
    · rcases hidOf r'' id hr'' with hr'' | ⟨-, hlast, -⟩
      · exact h.apart r' r'' id hr' hr''
      · exact absurd (h.fresh r' id hr') (by omega)
    · rcases hidOf r'' id hr'' with hr'' | ⟨hr'', -⟩
      · exact absurd (h.fresh r'' id hr'') (by omega)
      · rw [hr', hr'']
  · intro id r' hentry
    have hr : r' ≠ r := by
      rintro rfl
      exact hnone id hentry
    show (s.setPhase r arguments phase).idOf r' = some id ∧
      ∃ phase', (s.setPhase r arguments phase).phase? r' = some phase' ∧ phase'.Waits
    rw [idOf_setPhase, phase?_setPhase, if_neg hr, if_neg hr]
    exact h.pending id r' hentry
  · intro r' cause hanswer
    have hr : r' ≠ r := by
      rintro rfl
      exact hnew cause hanswer
    refine ⟨(h.answered r' cause hanswer).1, ?_⟩
    show ∃ phase', (s.setPhase r arguments phase).phase? r' = some phase' ∧ phase'.Entered
    rw [phase?_setPhase, if_neg hr]
    exact (h.answered r' cause hanswer).2
  · intro r' message hanswer
    have hr : r' ≠ r := by
      rintro rfl
      exact hnew _ hanswer
    show _ ∧ ∃ id, message.id? = some id ∧ (s.setPhase r arguments phase).idOf r' = some id
    rw [idOf_setPhase, if_neg hr]
    exact h.byResponse r' message hanswer
  · intro r' id result hr'
    have hphase' : (s.setPhase r arguments phase).phase? r' =
        some (.returned id (.received result)) := hr'
    rw [phase?_setPhase] at hphase'
    split_ifs at hphase' with hr
    · exact absurd (Option.some.inj hphase') (hwaits id result)
    · exact h.received r' id result hphase'

theorem Inv.flags (h : Inv text s) (running : Bool) (reader : Reader) :
    Inv text { s with running, reader } :=
  ⟨h.fresh, h.apart, h.pending, h.answered, h.once, h.byResponse, h.channel, h.received⟩

theorem Inv.take (h : Inv text s) {channel : ℕ → List Result}
    (hsub : ∀ r result, result ∈ channel r → result ∈ s.channel r) :
    Inv text { s with channel } :=
  ⟨h.fresh, h.apart, h.pending, h.answered, h.once, h.byResponse,
    fun r result hresult => h.channel r result (hsub r result hresult), h.received⟩

theorem Inv.enter (h : Inv text s) {r id : ℕ} (hid : s.idOf r = some id)
    (hwaits : ∃ phase, s.phase? r = some phase ∧ phase.Waits)
    (hnew : ∀ cause, (r, cause) ∉ s.answers) :
    Inv text { s with pending := s.pending.insert id r } := by
  have hget : ∀ id' r', (s.pending.insert id r).get? id' = some r' →
      s.pending.get? id' = some r' ∨ id' = id ∧ r' = r := by
    intro id' r' hentry
    rw [SortedMap.get?_insert] at hentry
    split_ifs at hentry with hsame
    · exact Or.inr ⟨hsame, (Option.some.inj hentry).symm⟩
    · exact Or.inl hentry
  refine ⟨h.fresh, h.apart, ?_, ?_, h.once, h.byResponse, h.channel, h.received⟩
  · intro id' r' hentry
    rcases hget id' r' hentry with hentry | ⟨rfl, rfl⟩
    · exact h.pending id' r' hentry
    · exact ⟨hid, hwaits⟩
  · intro r' cause hanswer
    obtain ⟨hnone, hentered⟩ := h.answered r' cause hanswer
    refine ⟨?_, hentered⟩
    intro id' hentry
    rcases hget id' r' hentry with hentry | ⟨-, rfl⟩
    · exact hnone id' hentry
    · exact hnew cause hanswer

/-- **The end of the reader.** Each sender in the map is used once. -/
theorem Inv.drain (h : Inv text s) : Inv text (s.drain text) := by
  have hsend : ∀ (entries : List (ℕ × ℕ)) (s' : Session), Inv text s' →
      (∀ id, s'.pending.get? id = none) → (entries.map Prod.snd).Nodup →
      (∀ entry ∈ entries, (∀ cause, (entry.2, cause) ∉ s'.answers) ∧
        ∃ phase, s'.phase? entry.2 = some phase ∧ phase.Entered) →
      Inv text (entries.foldl (fun s entry => s.send text entry.2 .sessionEnd) s') := by
    intro entries
    induction entries with
    | nil =>
      intro s' hs' _ _ _
      exact hs'
    | cons entry rest ih =>
      intro s' hs' hempty hnodup hentries
      obtain ⟨hnew, hentered⟩ := hentries entry mem_cons_self
      rw [map_cons, nodup_cons] at hnodup
      have hnone : ∀ id, s'.pending.get? id ≠ some entry.2 := by
        intro id hentry
        rw [hempty id] at hentry
        cases hentry
      have hnext := @Inv.send _ _ hs' entry.2 .sessionEnd hnone hnew hentered
        fun message hmessage => by cases hmessage
      refine ih _ hnext hempty hnodup.2 ?_
      intro entry' hentry'
      obtain ⟨hnew', hentered'⟩ := hentries entry' (mem_cons_of_mem _ hentry')
      refine ⟨?_, hentered'⟩
      intro cause hanswer
      rcases List.mem_append.mp hanswer with hanswer | hanswer
      · exact hnew' cause hanswer
      · have hsame : entry'.2 = entry.2 := (Prod.mk.inj (List.mem_singleton.mp hanswer)).1
        exact hnodup.1 (hsame ▸ mem_map_of_mem hentry')
  have hkey : ∀ entry ∈ s.pending.entries, s.idOf entry.2 = some entry.1 := fun entry hentry =>
    (h.pending entry.1 entry.2 (SortedMap.get?_eq_some.mpr hentry)).1
  refine hsend _ _ (h.restrict fun id r hentry => by cases hentry) (fun id => rfl) ?_ ?_
  · refine List.pairwise_map.mpr (s.pending.sorted.imp_of_mem ?_)
    intro a b ha hb hlt hsame
    have ha' := hkey a ha
    have hb' := hkey b hb
    rw [hsame, hb'] at ha'
    exact absurd (Option.some.inj ha') (ne_of_gt hlt)
  · intro entry hentry
    have hget := SortedMap.get?_eq_some.mpr hentry
    obtain ⟨-, phase, hphase, hwaits⟩ := h.pending entry.1 entry.2 hget
    refine ⟨?_, phase, hphase, hwaits.entered⟩
    intro cause hanswer
    exact (h.answered entry.2 cause hanswer).1 entry.1 hget

/-- **An answer.** The entry with the id of the message goes, and its sender is used. -/
theorem Inv.dispatch (h : Inv text s) {message : Json}
    (hmethod : ∀ id, message.id? = some id → s.pending.get? id ≠ none →
      message.get? "method" = none) : Inv text (s.dispatch text message) := by
  unfold Session.dispatch
  cases hid : message.id? with
  | none => exact h
  | some id =>
    dsimp only
    cases hentry : s.pending.get? id with
    | none => exact h
    | some r =>
      dsimp only
      obtain ⟨hidOf, phase, hphase, hwaits⟩ := h.pending id r hentry
      have hrest : Inv text { s with pending := s.pending.erase id } := by
        refine h.restrict ?_
        intro id' r' hentry'
        rw [SortedMap.get?_erase] at hentry'
        split_ifs at hentry'
        exact hentry'
      refine hrest.send ?_ ?_ ⟨phase, hphase, hwaits.entered⟩ ?_
      · intro id' hentry'
        have herased : (s.pending.erase id).get? id' = some r := hentry'
        rw [SortedMap.get?_erase] at herased
        split_ifs at herased with hsame
        have hother := (h.pending id' r herased).1
        rw [hidOf] at hother
        exact hsame (Option.some.inj hother).symm
      · intro cause hanswer
        exact (h.answered r cause hanswer).1 id hentry
      · intro message' hmessage'
        obtain rfl := Cause.response.inj hmessage'
        exact ⟨hmethod id hid (by rw [hentry]; exact Option.some_ne_none r), id, hid, hidOf⟩

/-! ### Runs -/

/-- A write does not fail while the entry of its request is in the map, and the server sends no
message with a method and an id that is in the map. -/
def Meets (s : Session) : Event → Prop
  | .write r (.failed _) => ∀ arguments id, s.calls r = some (arguments, .registered id) →
      s.pending.get? id = none
  | .message message => s.reader = .blocked → message.get? "method" ≠ none →
      ∀ id, message.id? = some id → s.pending.get? id = none
  | _ => True

/-- The counter of the ids does not start again. -/
def HasIds (s : Session) : Event → Prop
  | .number _ => s.nextId + 1 < 2 ^ 64
  | _ => True

theorem Inv.step (h : Inv text s) {event : Event} (hids : HasIds s event) (hmeets : Meets s event) :
    Inv text (s.step text event) := by
  cases event with
  | call r arguments =>
    unfold Session.step
    dsimp only
    cases hcall : s.calls r with
    | some call => exact h
    | none =>
      dsimp only
      have hid : s.idOf r = none := by
        unfold idOf phase?
        rw [hcall]
        rfl
      split_ifs
      all_goals
        exact h.start_call hid (le_refl _) (fun id h => by cases h) (fun id result h => by cases h)
  | number r =>
    unfold Session.step
    dsimp only
    rcases hcall : s.calls r with _ | ⟨arguments, phase⟩
    · exact h
    · cases phase with
      | checked =>
        have hsmall : (s.nextId + 1) % 2 ^ 64 = s.nextId + 1 := Nat.mod_eq_of_lt hids
        dsimp only
        rw [hsmall]
        refine h.start_call (idOf_of_call hcall) (Nat.le_succ _) ?_ fun id result h => by cases h
        intro id hid
        obtain rfl := Option.some.inj hid
        exact ⟨rfl, Nat.lt_succ_self _⟩
      | numbered | registered | waiting | returned => exact h
  | register r =>
    unfold Session.step
    dsimp only
    rcases hcall : s.calls r with _ | ⟨arguments, phase⟩
    · exact h
    · cases phase with
      | numbered id =>
        have hmoved : Inv text (s.setPhase r arguments (.registered id)) :=
          h.move hcall rfl (fun hentered => by cases hentered) (Or.inl trivial)
            fun id result h => by cases h
        refine hmoved.enter ?_ ⟨.registered id, ?_, trivial⟩ ?_
        · rw [idOf_setPhase, if_pos rfl]
          rfl
        · rw [phase?_setPhase, if_pos rfl]
        · intro cause hanswer
          obtain ⟨-, phase, hphase, hentered⟩ := h.answered r cause hanswer
          rw [phase?_of_call hcall] at hphase
          obtain rfl := Option.some.inj hphase
          cases hentered
      | checked | registered | waiting | returned => exact h
  | write r result =>
    unfold Session.step
    dsimp only
    rcases hcall : s.calls r with _ | ⟨arguments, phase⟩
    · exact h
    · cases phase with
      | registered id =>
        cases result with
        | written =>
          exact h.move hcall rfl (fun _ => trivial) (Or.inl trivial) fun id result h => by cases h
        | failed error =>
          refine h.move hcall rfl (fun _ => trivial) (Or.inr ?_) fun id result h => by cases h
          intro id' hentry
          have hid := (h.pending id' r hentry).1
          rw [idOf_of_call hcall] at hid
          obtain rfl : id = id' := Option.some.inj hid
          rw [hmeets arguments id hcall] at hentry
          cases hentry
      | checked | numbered | waiting | returned => exact h
  | receive r =>
    unfold Session.step
    dsimp only
    rcases hcall : s.calls r with _ | ⟨arguments, phase⟩
    · exact h
    · cases phase with
      | waiting id =>
        cases hchannel : s.channel r with
        | nil => exact h
        | cons result rest =>
          obtain ⟨cause, hanswer, hresult⟩ := h.channel r result (by rw [hchannel]; simp)
          have hmoved : Inv text
            (s.setPhase r arguments (.returned (some id) (.received result))) := by
            refine h.move hcall rfl (fun _ => trivial) (Or.inr (h.answered r cause hanswer).1) ?_
            intro id' result' hsame
            injection hsame with _ hsame
            injection hsame with hsame
            exact ⟨cause, hanswer, hsame ▸ hresult⟩
          refine hmoved.take ?_
          intro r' result' hmem
          by_cases hr : r' = r
          · rw [hr, update_self] at hmem
            rw [hr]
            show result' ∈ s.channel r
            rw [hchannel]
            exact mem_cons_of_mem _ hmem
          · rw [update_of_ne hr] at hmem
            exact hmem
      | checked | numbered | registered | returned => exact h
  | timeOut r =>
    unfold Session.step
    dsimp only
    rcases hcall : s.calls r with _ | ⟨arguments, phase⟩
    · exact h
    · cases phase with
      | waiting id =>
        have hrest : Inv text { s with pending := s.pending.erase id } := by
          refine h.restrict ?_
          intro id' r' hentry
          rw [SortedMap.get?_erase] at hentry
          split_ifs at hentry
          exact hentry
        refine @Inv.move _ _ hrest r arguments (.waiting id) _ hcall rfl (fun _ => trivial)
          (Or.inr ?_) fun id result h => by cases h
        intro id' hentry
        have herased : (s.pending.erase id).get? id' = some r := hentry
        rw [SortedMap.get?_erase] at herased
        split_ifs at herased with hsame
        have hid := (h.pending id' r herased).1
        rw [idOf_of_call hcall] at hid
        exact hsame (Option.some.inj hid).symm
      | checked | numbered | registered | returned => exact h
  | readerHead | streamEnd =>
    unfold Session.step
    dsimp only
    split
    · exact h.flags _ _
    · exact h
  | message message =>
    unfold Session.step
    dsimp only
    split
    · rename_i hreader
      refine (h.dispatch ?_).flags _ _
      intro id hid hentry
      by_contra hmethod
      exact hentry (hmeets hreader hmethod id hid)
    · exact h
  | drain =>
    unfold Session.step
    dsimp only
    split
    · exact h.drain.flags _ _
    · exact h
  | stop => exact h.flags false s.reader

/-- What a step of a session leaves as it should be: the state is orderly, a message with a method
touches no request, and a call that has returned has done so once and for all. -/
structure Keeps (text : Json → String) (s : Session) (event : Event) : Prop where
  orderly : Orderly text (s.step text event)
  untouched : ∀ message, event = .message message → message.get? "method" ≠ none →
    (s.step text event).pending = s.pending ∧ (s.step text event).answers = s.answers ∧
      (s.step text event).channel = s.channel
  final : ∀ r arguments id outcome, s.calls r = some (arguments, .returned id outcome) →
    (s.step text event).calls r = some (arguments, .returned id outcome)

theorem calls_drain : (s.drain text).calls = s.calls := by
  have hsend : ∀ (entries : List (ℕ × ℕ)) (s' : Session),
      (entries.foldl (fun s entry => s.send text entry.2 .sessionEnd) s').calls = s'.calls := by
    intro entries
    induction entries with
    | nil =>
      intro s'
      rfl
    | cons entry rest ih =>
      intro s'
      rw [foldl_cons, ih]
      rfl
  exact hsend _ _

theorem calls_dispatch (message : Json) : (s.dispatch text message).calls = s.calls := by
  unfold Session.dispatch
  split
  · rfl
  · split
    · rfl
    · rfl

theorem calls_setPhase {r r' : ℕ} {arguments : Arguments} {phase : Phase} (h : r' ≠ r) :
    (s.setPhase r arguments phase).calls r' = s.calls r' := update_of_ne h _ _

theorem final_step (event : Event) {r : ℕ} {arguments : Arguments} {id : Option ℕ}
    {outcome : Outcome} (hcall : s.calls r = some (arguments, .returned id outcome)) :
    (s.step text event).calls r = some (arguments, .returned id outcome) := by
  rw [← hcall]
  cases event with
  | readerHead | streamEnd =>
    unfold Session.step
    dsimp only
    split
    · rfl
    · rfl
  | message message =>
    unfold Session.step
    dsimp only
    split
    · exact congrFun (calls_dispatch message) r
    · rfl
  | drain =>
    unfold Session.step
    dsimp only
    split
    · exact congrFun calls_drain r
    · rfl
  | stop => rfl
  | call r' arguments' =>
    by_cases hr : r = r'
    · subst hr
      simp only [Session.step, hcall]
    · unfold Session.step
      dsimp only
      split
      · rfl
      · split_ifs
        all_goals exact calls_setPhase hr
  | write r' result =>
    by_cases hr : r = r'
    · subst hr
      simp only [Session.step, hcall]
    · unfold Session.step
      dsimp only
      split
      · exact calls_setPhase hr
      · exact calls_setPhase hr
      · rfl
  | number r' | register r' | receive r' | timeOut r' =>
    by_cases hr : r = r'
    · subst hr
      simp only [Session.step, hcall]
    · unfold Session.step
      dsimp only
      split
      · exact calls_setPhase hr
      · rfl

/-- A message that finds no entry changes nothing but the place of the reader. -/
theorem dispatch_of_none {message : Json}
    (h : ∀ id, message.id? = some id → s.pending.get? id = none) : s.dispatch text message = s := by
  unfold Session.dispatch
  cases hid : message.id? with
  | none => rfl
  | some id =>
    dsimp only
    rw [h id hid]

theorem keeps_iff (h : Inv text s) {event : Event} (hids : HasIds s event) :
    Keeps text s event ↔ Meets s event := by
  constructor
  · intro hkeeps
    cases event with
    | write r result =>
      cases result with
      | written => trivial
      | failed error =>
        intro arguments id hcall
        have hstep : s.step text (.write r (.failed error)) =
            s.setPhase r arguments (.returned (some id) (.writeFailed error)) := by
          simp only [Session.step, hcall]
        have hgone := hkeeps.orderly.gone r id (.writeFailed error)
        rw [hstep, phase?_setPhase, if_pos rfl] at hgone
        exact hgone rfl
    | message message =>
      intro hreader hmethod id hid
      by_contra hentry
      obtain ⟨r, hr⟩ := Option.ne_none_iff_exists'.mp hentry
      have hpending := (hkeeps.untouched message rfl hmethod).1
      have hstep : (s.step text (.message message)).pending = s.pending.erase id := by
        simp only [Session.step, hreader, Session.dispatch, hid, hr]
        rfl
      rw [hstep] at hpending
      have hget := congrArg (SortedMap.get? · id) hpending
      rw [SortedMap.get?_erase, if_pos rfl, hr] at hget
      cases hget
    | call | number | register | receive | timeOut | readerHead | streamEnd | drain | stop =>
      trivial
  · intro hmeets
    refine ⟨(h.step hids hmeets).orderly, ?_, fun r arguments id outcome => final_step event⟩
    rintro message rfl hmethod
    unfold Session.step
    dsimp only
    split
    · rename_i hreader
      rw [dispatch_of_none (hmeets hreader hmethod)]
      exact ⟨rfl, rfl, rfl⟩
    · exact ⟨rfl, rfl, rfl⟩

/-- **When answers reach their requests.** As long as the ids are not used up, a session stays
orderly exactly if no message with a method meets an entry with its id, and no write fails while the
entry of its request is in the map. -/
theorem answers_reach_iff (text : Json → String) (events : List Event)
    (hids : (machine text).Along HasIds start events) :
    (machine text).Along (Keeps text) start events ↔ (machine text).Along Meets start events :=
  @Machine.along_iff _ _ _ (machine text) (Inv text) _ _ _ (fun _ _ hids h => keeps_iff h hids)
    (fun _ _ hids _ hmeets h => h.step hids hmeets) events _ hids inv_start

/-- A request of the client up to its write. -/
def sampleRequest (result : WriteResult) : List Event :=
  [.call 0 ⟨"textDocument/definition", "10s"⟩, .number 0, .register 0, .write 0 result]

theorem answers_reach_iff_response :
    (machine fun _ => "").Along (Keeps fun _ => "") start (sampleRequest .written ++ [.readerHead,
          .message (.object [("id", .int 1), ("result", .null)]), .receive 0]) ↔
      (machine fun _ => "").Along Meets start (sampleRequest .written ++ [.readerHead,
          .message (.object [("id", .int 1), ("result", .null)]), .receive 0]) :=
  answers_reach_iff (fun _ => "") _
    ⟨trivial, (by decide : start.nextId + 1 < 2 ^ 64), trivial, trivial, trivial, trivial, trivial,
      trivial⟩

/-- A request of the server answers the one of the client with the same id; a request that is not
written leaves its entry. -/
theorem server_request_answers :
    ¬ (machine fun _ => "").Along (Keeps fun _ => "") start (sampleRequest .written ++ [.readerHead,
          .message (.object [("id", .int 1), ("method", .string "workspace/configuration")])]) ∧
      ¬ (machine fun _ => "").Along (Keeps fun _ => "") start
        (sampleRequest (.failed (.io "broken pipe"))) := by
  refine ⟨?_, ?_⟩
  · rintro ⟨-, -, -, -, -, hkeeps, -⟩
    have hpending := (hkeeps.untouched _ rfl (by decide)).1
    have hentries := congrArg SortedMap.entries hpending
    cases hentries
  · rintro ⟨-, -, -, hkeeps, -⟩
    have hgone := hkeeps.orderly.gone 0 1 (.writeFailed (.io "broken pipe")) rfl
    cases hgone

end Session

end Pandora.Lsp
