import OtaPlatform.Engine.Emissions
import OtaPlatform.Engine.Redelivery

/-!
# Transition numbers

The transitions of a card in a campaign are numbered, the number is part of the primary key, and the
row with the highest number is read as the current one. So the numbers should increase from
transition to transition. Otherwise a row is discarded as a conflict, or an old one stays the
latest.

A handler counts on from the state it found, an activation starts again at one, and the control
plane counts on from the latest stored row. `NumberingGuard` keeps the three together:

* a card is activated once in a campaign, before any other transition;
* a state is read from the table only when no transition of the card is on its way there;
* a report acts on the cached state of its own campaign only;
* the control plane moves a card when no transition of it is on its way and its state is not cached.

Under the guard the numbers increase in every run, from any stored rows: `transitions_increasing`.
-/

namespace OtaPlatform

open List Function

namespace Engine

variable (s : Engine)

/-- The rows so far: those a run started with, and the transitions since. -/
def history (base : List ExecutionRow) : List ExecutionRow := base ++ s.transitions

/-- The card has no transition in the campaign yet; its initial row may be there. -/
def Unmoved (pair : UUID × UUID) : Prop :=
  (∀ ch ∈ s.stateCh, ch.pair ≠ pair) ∧
    ∀ row ∈ s.tables.executionStates, row.pair = pair → row.transitionSeq ≤ 0

/-- If the state of the card has to be read from the table, all its transitions are there. -/
def ReadsCurrent (cardID : UUID) : Prop :=
  s.process.cardState cardID = none → ∀ ch ∈ s.stateCh, ch.cardID ≠ cardID

/-- No transition of the card in the campaign is on its way, and no state of it is cached. -/
def AtRest (cardID campaignID : UUID) : Prop :=
  (∀ ch ∈ s.stateCh, ch.pair ≠ (cardID, campaignID)) ∧
    ∀ st ∈ s.process.cardState cardID, st.campaignID ≠ campaignID

instance (pair : UUID × UUID) : Decidable (s.Unmoved pair) := inferInstanceAs (Decidable (_ ∧ _))

instance (cardID : UUID) : Decidable (s.ReadsCurrent cardID) :=
  inferInstanceAs (Decidable (_ = none → _))

instance (cardID campaignID : UUID) : Decidable (s.AtRest cardID campaignID) :=
  inferInstanceAs (Decidable (_ ∧ _))

end Engine

/-- **When the numbers stay in order.** -/
def NumberingGuard (s : Engine) : EngineAction → Prop
  | .handle ev ans _ =>
    if ev.type = .activate ∧ ans.refuses = false then
      -- the call ends early, or the card was not activated in the campaign
      s.process.Refuses ans ev ∨
        ∀ campaignID ∈ ev.campaignID, s.Unmoved (ev.cardID, campaignID)
    else
      s.ReadsCurrent ev.cardID ∧ ∀ st ∈ s.process.cardState ev.cardID, ev.Moves st →
        ev.campaignFor st = st.campaignID
  | .lookup cardID _ => s.ReadsCurrent cardID
  | .initCampaign campaignID cardIDs _ _ => ∀ cardID ∈ cardIDs,
      s.Unmoved (cardID, campaignID) ∧ s.AtRest cardID campaignID
  | .reset campaignID cardIDs _ _ => ∀ cardID ∈ cardIDs, s.AtRest cardID campaignID
  | .abort campaignID _ => ∀ cardID, s.AtRest cardID campaignID
  | _ => True

/-- The numbers are in order: every transition has a higher number than the rows of its card and
campaign before it, no transition on its way has the primary key of a stored row, and where none is
on its way the row with the highest number is the last transition. -/
structure InOrderOfNumber (base : List ExecutionRow) (s : Engine) : Prop where
  /-- Every stored row was there from the start or is a transition since. -/
  stored : ∀ row ∈ s.tables.executionStates, row ∈ s.history base
  ascending : Ledger.Ascending ExecutionRow.pair ExecutionRow.transitionSeq base s.transitions
  unconflicted : ∀ ch ∈ s.stateCh, s.tables.executionStates.any ch.toRow.conflicts = false
  /-- The row with the highest number is the last transition. -/
  latest : ∀ pair row, s.last pair = some row → (∀ ch ∈ s.stateCh, ch.pair ≠ pair) →
    latestRow s.tables.executionStates pair = some row

/-! ## The invariant -/

structure Numbering (base : List ExecutionRow) (s : Engine) : Prop where
  stored : ∀ row ∈ s.tables.executionStates, row ∈ s.history base
  waiting : ∀ ch ∈ s.stateCh, ch.toRow ∈ s.history base
  /-- What is stored or on its way reaches the numbers of the history. -/
  reached : ∀ row ∈ s.history base,
    (∃ r ∈ s.tables.executionStates, r.pair = row.pair ∧ row.transitionSeq ≤ r.transitionSeq) ∨
      ∃ ch ∈ s.stateCh, ch.pair = row.pair ∧ row.transitionSeq ≤ ch.transitionSeq
  ascending : Ledger.Ascending ExecutionRow.pair ExecutionRow.transitionSeq base s.transitions
  nodup : (s.stateCh.map fun ch ↦ ch.toRow.primaryKey).Nodup
  fresh : ∀ ch ∈ s.stateCh, ∀ row ∈ s.tables.executionStates,
    row.primaryKey ≠ ch.toRow.primaryKey
  cached : ∀ cardID st, s.process.cardState cardID = some st → ∀ row ∈ s.history base,
    row.pair = (cardID, st.campaignID) → row.transitionSeq ≤ st.transitionSeq

section Numbering

variable {cfg : EngineConfig} {base : List ExecutionRow} {s s' : Engine} {campaignID : UUID}
  {ev : CardEvent} {answered : Option UUID} (h : Numbering base s)

include h

theorem Numbering.inOrder : InOrderOfNumber base s where
  stored := h.stored
  ascending := h.ascending
  unconflicted ch hch := by
    refine any_eq_false.mpr fun row hrow hconf ↦ ?_
    exact h.fresh ch hch row hrow (ExecutionRow.conflicts_iff.mp hconf).symm
  latest pair row hlast hidle := by
    have hrow := Ledger.mem_of_lastOf hlast
    -- the last transition is not on its way, so something that reaches it is stored
    rcases h.reached row (mem_append_right _ hrow.1) with
      ⟨r, hr, hpair, hle⟩ | ⟨ch, hch, hpair, -⟩
    · have hr' : r = row := by
        rcases h.ascending.eq_or_lt hlast (h.stored r hr) (hpair.trans hrow.2) with rfl | hlt
        · rfl
        · exact absurd hlt (not_lt.mpr hle)
      subst hr'
      rw [← hrow.2]
      refine latestRow_eq_of_forall hr fun x hx hxpair hxle ↦ ?_
      rcases h.ascending.eq_or_lt hlast (h.stored x hx) (hxpair.trans hrow.2) with rfl | hlt
      · rfl
      · exact absurd hlt (not_lt.mpr hxle)
    · exact absurd (hpair.trans hrow.2) (hidle ch hch)

theorem Numbering.reached_stored {row : ExecutionRow}
    (hrow : row ∈ s.history base) (hidle : ∀ ch ∈ s.stateCh, ch.pair ≠ row.pair) :
    ∃ r ∈ s.tables.executionStates, r.pair = row.pair ∧ row.transitionSeq ≤ r.transitionSeq := by
  rcases h.reached row hrow with hr | ⟨ch, hch, hpair, -⟩
  · exact hr
  · exact absurd hpair (hidle ch hch)

theorem Numbering.of_same (hsame : s.Same s') : Numbering base s' := by
  have hhistory : s'.history base = s.history base := congrArg (base ++ ·) hsame.transitions
  refine ⟨?_, ?_, ?_, ?_, ?_, ?_, ?_⟩
  · rw [hsame.tables, hhistory]
    exact h.stored
  · rw [hsame.stateCh, hhistory]
    exact h.waiting
  · rw [hsame.tables, hsame.stateCh, hhistory]
    exact h.reached
  · rw [hsame.transitions]
    exact h.ascending
  · rw [hsame.stateCh]
    exact h.nodup
  · rw [hsame.tables, hsame.stateCh]
    exact h.fresh
  · rw [hsame.cardState, hhistory]
    exact h.cached

/-- **The state that is found** has the highest number: of its campaign if it is cached, of all
campaigns if it is read. -/
theorem Numbering.le_found {cardID : UUID} {row : Except String (Option ExecutionRow)}
    (hrow : s.Selectable cardID row) (hreads : s.ReadsCurrent cardID) {st : CardState}
    (hfound : s.process.found cardID row = some st)
    (hcampaign : s.process.cardState cardID = some st → st.campaignID = campaignID)
    {x : ExecutionRow} (hx : x ∈ s.history base) (hpair : x.pair = (cardID, campaignID)) :
    x.transitionSeq ≤ st.transitionSeq := by
  rcases Process.found_cases hfound with hcached | ⟨hmiss, r, hr, rfl⟩
  · exact h.cached cardID st hcached x hx (hcampaign hcached ▸ hpair)
  · obtain ⟨y, hy, hypair, hle⟩ := h.reached_stored hx fun ch hch hch' ↦
      hreads hmiss ch hch (congrArg Prod.fst (hch'.trans hpair))
    exact hle.trans ((hrow.mem hr).2.2 y hy (congrArg Prod.fst (hypair.trans hpair)))

/-! ## Handler calls -/

omit h in
private theorem primaryKey_ne_of_lt {row row' : ExecutionRow}
    (h : row.pair = row'.pair → row.transitionSeq < row'.transitionSeq) :
    row.primaryKey ≠ row'.primaryKey := by
  intro hkey
  obtain ⟨hpair, hseq⟩ := Prod.mk_inj.mp hkey
  exact absurd hseq (h hpair).ne

omit h in
private theorem nodup_map_of_length_le_one {α β : Type} {l : List α} (h : l.length ≤ 1)
    (f : α → β) : (l.map f).Nodup := by
  cases l with
  | nil => exact nodup_nil
  | cons a l =>
    obtain rfl : l = [] := eq_nil_of_length_eq_zero (Nat.le_zero.mp (Nat.le_of_succ_le_succ h))
    exact nodup_singleton _

theorem Numbering.of_handles {after : Option CardState} {outs : List Output}
    {counters : CounterStore} (hh : s.Handles s' ev answered after outs counters)
    (hone : (changesOf outs).length ≤ 1)
    (hnew : ∀ ch ∈ changesOf outs, ch.cardID = ev.cardID ∧ ∀ row ∈ s.history base,
      row.pair = ch.toRow.pair → row.transitionSeq < ch.toRow.transitionSeq)
    (hafter : ∀ st, after = some st →
      ∀ row ∈ s.history base ++ (changesOf outs).map CardStateChange.toRow,
        row.pair = (ev.cardID, st.campaignID) → row.transitionSeq ≤ st.transitionSeq) :
    Numbering base s' := by
  have hstateCh := hh.stateCh
  have htransitions := hh.transitions_eq
  generalize changesOf outs = chs at hone hnew hafter hstateCh htransitions
  have hhistory : s'.history base = s.history base ++ chs.map CardStateChange.toRow :=
    (congrArg (base ++ ·) htransitions).trans (append_assoc _ _ _).symm
  refine ⟨fun row hrow ↦ ?_, fun ch hch ↦ ?_, fun row hrow ↦ ?_, ?_, ?_, fun ch hch row hrow ↦ ?_,
    fun cardID st hst row hrow hpair ↦ ?_⟩
  · rw [hh.tables] at hrow
    rw [hhistory]
    exact mem_append_left _ (h.stored row hrow)
  · rw [hstateCh] at hch
    rw [hhistory]
    rcases mem_append.mp hch with hch | hch
    · exact mem_append_left _ (h.waiting ch hch)
    · exact mem_append_right _ (mem_map_of_mem hch)
  · rw [hhistory] at hrow
    rw [hh.tables, hstateCh]
    rcases mem_append.mp hrow with hrow | hrow
    · refine (h.reached row hrow).imp_right ?_
      rintro ⟨ch, hch, hreached⟩
      exact ⟨ch, mem_append_left _ hch, hreached⟩
    · obtain ⟨ch, hch, rfl⟩ := mem_map.mp hrow
      exact Or.inr ⟨ch, mem_append_right _ hch, rfl, le_rfl⟩
  · rw [htransitions]
    refine h.ascending.append ?_ fun row hrow row' hrow' ↦ ?_
    · rw [map_map]
      exact nodup_map_of_length_le_one hone _
    · obtain ⟨ch, hch, rfl⟩ := mem_map.mp hrow'
      exact (hnew ch hch).2 row hrow
  · rw [hstateCh, map_append, nodup_append]
    refine ⟨h.nodup, nodup_map_of_length_le_one hone _, ?_⟩
    intro key hkey key' hkey'
    obtain ⟨ch, hch, rfl⟩ := mem_map.mp hkey
    obtain ⟨ch', hch', rfl⟩ := mem_map.mp hkey'
    exact primaryKey_ne_of_lt ((hnew ch' hch').2 ch.toRow (h.waiting ch hch))
  · rw [hstateCh] at hch
    rw [hh.tables] at hrow
    rcases mem_append.mp hch with hch | hch
    · exact h.fresh ch hch row hrow
    · exact primaryKey_ne_of_lt ((hnew ch hch).2 row (h.stored row hrow))
  · rw [hh.cardState] at hst
    rw [hhistory] at hrow
    by_cases hcard : cardID = ev.cardID
    · subst hcard
      rw [update_self] at hst
      exact hafter st hst row hrow hpair
    · rw [update_of_ne hcard] at hst
      rcases mem_append.mp hrow with hrow | hrow
      · exact h.cached cardID st hst row hrow hpair
      · -- the new transitions are those of another card
        obtain ⟨ch, hch, rfl⟩ := mem_map.mp hrow
        exact absurd ((congrArg Prod.fst hpair).symm.trans (hnew ch hch).1) hcard

/-- A call that emits nothing keeps the invariant if the state it leaves has the highest number. -/
theorem Numbering.of_handles_silent {after : Option CardState} {outs : List Output}
    {counters : CounterStore} (hh : s.Handles s' ev answered after outs counters)
    (hsilent : changesOf outs = []) (hafter : ∀ st, after = some st → ∀ row ∈ s.history base,
      row.pair = (ev.cardID, st.campaignID) → row.transitionSeq ≤ st.transitionSeq) :
    Numbering base s' := by
  refine h.of_handles hh (hsilent ▸ Nat.zero_le 1) (fun ch hch ↦ ?_) fun st hst row hrow ↦ ?_
  · rw [hsilent] at hch
    exact absurd hch not_mem_nil
  · rw [hsilent, map_nil, append_nil] at hrow
    exact hafter st hst row hrow

theorem Numbering.begin {ans : Answers} {outs : List Output} {counters : CounterStore}
    (hh : s.Handles s' ev answered (some (activateState ans ev campaignID)) outs counters)
    (hchs : changesOf outs = [activateChange ans ev campaignID] ∨ changesOf outs = [])
    (hunmoved : s.Unmoved (ev.cardID, campaignID)) : Numbering base s' := by
  have hle : ∀ row ∈ s.history base, row.pair = (ev.cardID, campaignID) →
      row.transitionSeq ≤ 0 := by
    intro row hrow hpair
    obtain ⟨r, hr, hrpair, hle⟩ := h.reached_stored hrow fun ch hch hch' ↦
      hunmoved.1 ch hch (hch'.trans hpair)
    exact hle.trans (hunmoved.2 r hr (hrpair.trans hpair))
  rcases hchs with hchs | hchs
  · refine h.of_handles hh (hchs ▸ le_rfl) (fun ch hch ↦ ?_) fun st hst row hrow hpair ↦ ?_
    · rw [hchs] at hch
      obtain rfl := mem_singleton.mp hch
      exact ⟨rfl, fun row hrow hpair ↦ Int.lt_of_le_of_lt (hle row hrow hpair) Int.one_pos⟩
    · obtain rfl := Option.some.inj hst
      rw [hchs] at hrow
      rcases mem_append.mp hrow with hrow | hrow
      · exact (hle row hrow hpair).trans Int.one_nonneg
      · rw [mem_singleton.mp hrow]
        exact le_rfl
  · refine h.of_handles_silent hh hchs fun st hst row hrow hpair ↦ ?_
    obtain rfl := Option.some.inj hst
    exact (hle row hrow hpair).trans Int.one_nonneg

theorem Numbering.handle_activate {ans : Answers} (htype : ev.type = .activate)
    (hpass : ans.refuses = false) (hguard : s.process.Refuses ans ev ∨
      ∀ campaignID ∈ ev.campaignID, s.Unmoved (ev.cardID, campaignID)) :
    Numbering base (s.handle cfg ev ans answered) := by
  obtain ⟨after, outs, counters, hout, hh⟩ := s.handle_cases cfg ev ans answered
  have hkept : ∀ st, s.process.cardState ev.cardID = some st → ∀ row ∈ s.history base,
      row.pair = (ev.cardID, st.campaignID) → row.transitionSeq ≤ st.transitionSeq :=
    h.cached ev.cardID
  rcases hguard with hrefuses | hunmoved
  · have hunaffected := (unaffected_iff cfg s htype ans answered).mpr hrefuses
    refine h.of_handles_silent hh ?_ fun st hst ↦ hkept st ?_
    · have hemitted := hunaffected.emitted
      rw [hh.emitted_eq] at hemitted
      exact append_right_eq_self.mp hemitted
    · rw [← hst, ← hunaffected.cardState, hh.cardState, update_self]
  · cases hout with
    | refused hcampaign htype' => exact h.of_handles_silent hh rfl hkept
    | reported htype' => exact absurd (htype.symm.trans htype') EventType.noConfusion
    | responded htype' => exact absurd (htype.symm.trans htype') EventType.noConfusion
    | @activated campaignID _ _ _ _ hcampaign h' =>
      have hfresh := hunmoved campaignID hcampaign
      cases h' with
      | quiet | consumed | delayed => exact h.of_handles_silent hh rfl hkept
      | overflowed hctx hcmd hslot =>
        rw [Answers.refuses_eq hctx, hslot.1] at hpass
        exact absurd hpass Bool.noConfusion
      | unsent => exact h.begin hh (Or.inr rfl) hfresh
      | sent msg origin hctx hcmd hpass' hmsg horigin houts =>
        rcases houts with rfl | rfl
        · exact h.begin hh (Or.inl rfl) hfresh
        · exact h.begin hh (Or.inr rfl) hfresh

omit h in
/-- A call that ends a card takes it from the campaign of the state it found, unless it read the
state from the table. -/
private theorem campaignID_of_moves_found {ans : Answers} {st : CardState}
    (hpass : ¬ (ev.type = .activate ∧ ans.refuses = false))
    (hfound : s.process.found ev.cardID ans.row = some st)
    (hmoves : s.moves ev ans = some campaignID)
    (hown : ev.Moves st → ev.campaignFor st = st.campaignID) : st.campaignID = campaignID := by
  have hreport : ((s.process.found ev.cardID ans.row).bind fun st ↦
      if ev.Moves st then some (ev.campaignFor st) else none) = some campaignID →
        st.campaignID = campaignID := by
    intro h
    rw [hfound, Option.bind_some] at h
    split_ifs at h with hst
    exact (hown hst).symm.trans (Option.some.inj h)
  rw [Engine.moves] at hmoves
  cases htype : ev.type with
  | dlrReceived | moReceived =>
    rw [htype] at hmoves
    exact hreport hmoves
  | activate =>
    have hrefuses : ans.refuses = true := Bool.eq_true_of_not_eq_false fun h ↦ hpass ⟨htype, h⟩
    rw [htype] at hmoves
    simp only [hrefuses, if_true, hfound, Option.bind_some] at hmoves
    split_ifs at hmoves with hslot hst
    exact Option.some.inj (hst.1.symm.trans hmoves)

theorem Numbering.handle_report {ans : Answers} (hrow : s.Selectable ev.cardID ans.row)
    (hpass : ¬ (ev.type = .activate ∧ ans.refuses = false)) (hreads : s.ReadsCurrent ev.cardID)
    (hown : ∀ st ∈ s.process.cardState ev.cardID, ev.Moves st →
      ev.campaignFor st = st.campaignID) : Numbering base (s.handle cfg ev ans answered) := by
  obtain ⟨after, outs, counters, hout, hh⟩ := s.handle_cases cfg ev ans answered
  have hfoundLe : ∀ {st : CardState}, s.process.found ev.cardID ans.row = some st →
      ∀ row ∈ s.history base, row.pair = (ev.cardID, st.campaignID) →
        row.transitionSeq ≤ st.transitionSeq := by
    intro st hfound row hx hpair
    exact h.le_found hrow hreads hfound (fun _ ↦ rfl) hx hpair
  -- the same for the campaign in which the card is ended
  have hmovesLe : ∀ {st : CardState} {campaignID : UUID},
      s.process.found ev.cardID ans.row = some st → s.moves ev ans = some campaignID →
      ∀ row ∈ s.history base, row.pair = (ev.cardID, campaignID) →
        row.transitionSeq ≤ st.transitionSeq := by
    intro st campaignID hfound hmoves row hx hpair
    refine h.le_found hrow hreads hfound (fun hcached ↦ ?_) hx hpair
    exact campaignID_of_moves_found hpass hfound hmoves (hown st hcached)
  have heffect := hout.effect
  generalize hchs : changesOf outs = chs at heffect
  cases heffect with
  | keeps => exact h.of_handles_silent hh hchs (h.cached ev.cardID)
  | reads => exact h.of_handles_silent hh hchs fun st hst ↦ hfoundLe hst
  | awaits hfound hst =>
    refine h.of_handles_silent hh hchs fun st' hst' row hx hpair ↦ ?_
    obtain rfl := Option.some.inj hst'
    exact (hfoundLe hfound row hx hpair).trans (Int.le_add_one le_rfl)
  | begins htype hmoves hfrom =>
    rw [CardEvent.movesFrom, htype] at hfrom
    refine absurd ⟨htype, ?_⟩ hpass
    cases hrefuses : ans.refuses with
    | false => rfl
    | true =>
      rw [hrefuses] at hfrom
      exact absurd hfrom CardStatus.noConfusion
  | ends hfound hst hmoves hrefuses hstatus hch =>
    refine h.of_handles hh (hchs ▸ le_rfl) (fun ch' hch' ↦ ?_)
      fun st' hst' ↦ absurd hst'.symm (Option.some_ne_none st')
    rw [hchs] at hch'
    obtain rfl := mem_singleton.mp hch'
    refine ⟨hch.cardID_eq, fun row hx hpair ↦ ?_⟩
    rw [CardStateChange.transitionSeq_toRow, hch.transitionSeq_eq]
    refine Int.lt_add_one_of_le (hmovesLe hfound hmoves row hx (hpair.trans ?_))
    exact Prod.ext hch.cardID_eq hch.campaignID_eq
  | unwritten hfound hmoves hstatus hst' =>
    refine h.of_handles_silent hh hchs fun st'' hst'' row hx hpair ↦ ?_
    obtain rfl := Option.some.inj hst''
    rw [hst'.campaignID_eq] at hpair
    rw [hst'.transitionSeq_eq]
    exact (hmovesLe hfound hmoves row hx hpair).trans (Int.le_add_one le_rfl)
  | drops =>
    exact h.of_handles_silent hh hchs fun st' hst' ↦ absurd hst'.symm (Option.some_ne_none st')

/-! ## Lookups, flushes and the control plane -/

theorem Numbering.lookup {cardID : UUID}
    {row : Except String (Option ExecutionRow)} (hrow : s.Selectable cardID row)
    (hreads : s.ReadsCurrent cardID) : Numbering base (s.next cfg (.lookup cardID row)) := by
  refine ⟨h.stored, h.waiting, h.reached, h.ascending, h.nodup, h.fresh, ?_⟩
  intro card st hst x hx hpair
  rw [Engine.cardState_lookup] at hst
  by_cases hcard : card = cardID
  · subst hcard
    rw [update_self] at hst
    exact h.le_found hrow hreads hst (fun _ ↦ rfl) hx hpair
  · rw [update_of_ne hcard] at hst
    exact h.cached card st hst x hx hpair

theorem Numbering.flush {batch : List CardStateChange} (hbatch : batch.Subperm s.stateCh)
    (copyWorks : Bool) : Numbering base (s.next cfg (.flush batch copyWorks)) := by
  obtain ⟨added, htable, hadded⟩ :=
    exists_executionStates_writeCardStateBatch copyWorks s.tables batch
  have htable' : (s.next cfg (.flush batch copyWorks)).tables.executionStates
      = s.tables.executionStates ++ added := htable
  refine ⟨fun row hrow ↦ ?_, fun ch hch ↦ ?_, fun row hrow ↦ ?_, h.ascending, ?_,
    fun ch hch row hrow ↦ ?_, h.cached⟩
  · rw [htable'] at hrow
    rcases mem_append.mp hrow with hrow | hrow
    · exact h.stored row hrow
    · obtain ⟨ch, hch, rfl⟩ := hadded row hrow
      exact h.waiting ch (hbatch.subset hch)
  · exact h.waiting ch (diff_subset _ _ hch)
  · rcases h.reached row hrow with ⟨r, hr, hreached⟩ | ⟨ch, hch, hpair, hle⟩
    · rw [htable']
      exact Or.inl ⟨r, mem_append_left _ hr, hreached⟩
    · by_cases hwritten : ch ∈ batch
      · -- the row that stands for the transition in the batch is stored
        obtain ⟨r, hr, hrpair, hrle⟩ := exists_mem_copyRows hwritten
        obtain ⟨x, hx, hxpair, hxseq⟩ := exists_mem_foldl_insertRow s.tables.executionStates hr
        rw [← executionStates_writeCardStateBatch copyWorks] at hx
        exact Or.inl ⟨x, hx, hxpair.trans (hrpair.trans hpair), hle.trans (hrle.trans hxseq.ge)⟩
      · exact Or.inr ⟨ch, mem_diff_of_mem hch hwritten, hpair, hle⟩
  · exact h.nodup.sublist ((diff_sublist _ _).map _)
  · rw [htable'] at hrow
    obtain ⟨hmem, hkept⟩ := h.nodup.of_map.mem_sdiff_iff.mp hch
    rcases mem_append.mp hrow with hrow | hrow
    · exact h.fresh ch hmem row hrow
    · obtain ⟨ch', hch', rfl⟩ := hadded row hrow
      intro hkey
      rw [inj_on_of_nodup_map h.nodup (hbatch.subset hch') hmem hkey] at hch'
      exact hkept hch'

/-- A statement that appends rows above the history of cards whose state is not cached. -/
theorem Numbering.control {tables : StateTables} {rows : List ExecutionRow}
    (htable : tables.executionStates = s.tables.executionStates ++ rows)
    (hnodup : (rows.map ExecutionRow.pair).Nodup)
    (habove : ∀ row ∈ rows, ∀ row' ∈ s.history base, row'.pair = row.pair →
      row'.transitionSeq < row.transitionSeq)
    (hrest : ∀ row ∈ rows, s.AtRest row.cardID row.campaignID) :
    Numbering base (s.control tables) := by
  have htransitions := s.transitions_control htable
  have hhistory : (s.control tables).history base = s.history base ++ rows :=
    (congrArg (base ++ ·) htransitions).trans (append_assoc _ _ _).symm
  have htable' : (s.control tables).tables.executionStates = s.tables.executionStates ++ rows :=
    htable
  refine ⟨fun row hrow ↦ ?_, fun ch hch ↦ ?_, fun row hrow ↦ ?_, ?_, h.nodup,
    fun ch hch row hrow ↦ ?_, fun cardID st hst row hrow hpair ↦ ?_⟩
  · rw [htable'] at hrow
    rw [hhistory]
    exact (mem_append.mp hrow).elim (fun hrow ↦ mem_append_left _ (h.stored row hrow))
      (mem_append_right _)
  · rw [hhistory]
    exact mem_append_left _ (h.waiting ch hch)
  · rw [hhistory] at hrow
    rw [htable']
    rcases mem_append.mp hrow with hrow | hrow
    · refine (h.reached row hrow).imp_left ?_
      rintro ⟨r, hr, hreached⟩
      exact ⟨r, mem_append_left _ hr, hreached⟩
    · exact Or.inl ⟨row, mem_append_right _ hrow, rfl, le_rfl⟩
  · rw [htransitions]
    exact h.ascending.append hnodup fun row' hrow' row hrow ↦ habove row hrow row' hrow'
  · rw [htable'] at hrow
    rcases mem_append.mp hrow with hrow | hrow
    · exact h.fresh ch hch row hrow
    · exact (primaryKey_ne_of_lt (habove row hrow ch.toRow (h.waiting ch hch))).symm
  · rw [hhistory] at hrow
    rcases mem_append.mp hrow with hrow | hrow
    · exact h.cached cardID st hst row hrow hpair
    · obtain ⟨hcard, hcampaign⟩ := Prod.mk_inj.mp hpair
      exact absurd hcampaign.symm ((hrest row hrow).2 st (hcard ▸ hst))

theorem Numbering.control_latest {tables : StateTables} {rows : List ExecutionRow}
    (htable : tables.executionStates = s.tables.executionStates ++ rows)
    (hnodup : (rows.map ExecutionRow.pair).Nodup)
    (hrows : ∀ row ∈ rows, ∃ cardID campaignID latest, s.AtRest cardID campaignID ∧
      latestRow s.tables.executionStates (cardID, campaignID) = some latest ∧
      row.pair = latest.pair ∧ row.transitionSeq = latest.transitionSeq + 1) :
    Numbering base (s.control tables) := by
  refine h.control htable hnodup (fun row hrow row' hrow' hpair ↦ ?_) fun row hrow ↦ ?_
  · obtain ⟨cardID, campaignID, latest, hrest, hlatest, hlast, hseq⟩ := hrows row hrow
    have hcard := hpair.trans (hlast.trans (mem_of_latestRow hlatest).2)
    obtain ⟨r, hr, hrpair, hle⟩ := h.reached_stored hrow' fun ch hch hch' ↦
      hrest.1 ch hch (hch'.trans hcard)
    rw [hseq]
    exact Int.lt_add_one_of_le (hle.trans (le_of_latestRow hlatest hr (hrpair.trans hcard)))
  · obtain ⟨cardID, campaignID, latest, hrest, hlatest, hlast, -⟩ := hrows row hrow
    obtain ⟨rfl, rfl⟩ := Prod.mk_inj.mp (hlast.trans (mem_of_latestRow hlatest).2)
    exact hrest

theorem Numbering.initCampaign {cardIDs : List UUID} {step updatedAt : ℤ}
    (hguard : ∀ cardID ∈ cardIDs, s.Unmoved (cardID, campaignID) ∧ s.AtRest cardID campaignID) :
    Numbering base (s.control (initializeCampaign s.tables campaignID cardIDs step updatedAt)) := by
  obtain ⟨added, htable, -⟩ := exists_executionStates_initializeCampaign s.tables campaignID
    cardIDs step updatedAt
  obtain ⟨hnodup, hadded⟩ := pairs_initializeCampaign htable
  refine h.control htable hnodup (fun row hrow row' hrow' hpair ↦ ?_) fun row hrow ↦ ?_
  · obtain ⟨hseq, ⟨cardID, hcard, hrowpair⟩, hfresh⟩ := hadded row hrow
    have hunmoved := (hguard cardID hcard).1
    obtain ⟨r, hr, hrpair, hle⟩ := h.reached_stored hrow' fun ch hch hch' ↦
      hunmoved.1 ch hch (hch'.trans (hpair.trans hrowpair))
    -- the stored row is not numbered zero, or the initial row would not have been inserted
    have hzero := hunmoved.2 r hr (hrpair.trans (hpair.trans hrowpair))
    have hne : r.transitionSeq ≠ 0 := fun h0 ↦
      hfresh r hr (Prod.ext (hrpair.trans hpair) (h0.trans hseq.symm))
    rw [hseq]
    exact hle.trans_lt (lt_of_le_of_ne hzero hne)
  · obtain ⟨-, ⟨cardID, hcard, hrowpair⟩, -⟩ := hadded row hrow
    obtain ⟨rfl, rfl⟩ := Prod.mk_inj.mp hrowpair
    exact (hguard _ hcard).2

theorem Numbering.reset {cardIDs : List UUID}
    {step updatedAt : ℤ} (hguard : ∀ cardID ∈ cardIDs, s.AtRest cardID campaignID) :
    Numbering base (s.control (resetTransaction s.tables campaignID cardIDs step updatedAt)) := by
  refine h.control_latest executionStates_resetTransaction nodup_pairs_resetRows fun row hrow ↦ ?_
  obtain ⟨cardID, hcard, latest, hlatest, rfl⟩ := mem_resetRows.mp hrow
  exact ⟨cardID, campaignID, latest, hguard cardID hcard, hlatest, rfl, rfl⟩

theorem Numbering.abort {updatedAt : ℤ} (hguard : ∀ cardID, s.AtRest cardID campaignID) :
    Numbering base (s.control (abortCampaign s.tables campaignID updatedAt)) := by
  refine h.control_latest executionStates_abortCampaign nodup_pairs_abortRows fun row hrow ↦ ?_
  obtain ⟨cardID, latest, hlatest, -, rfl⟩ := mem_abortRows.mp hrow
  exact ⟨cardID, campaignID, latest, hguard cardID, hlatest, rfl, rfl⟩

/-! ## Runs -/

/-- **A step under the guard** keeps the invariant. -/
theorem Numbering.next {a : EngineAction} (henabled : s.Enabled cfg a)
    (hguard : NumberingGuard s a) : Numbering base (s.next cfg a) := by
  cases a with
  | plan _ | release _ | preloadShard _ _ _ _ | check _ => exact h.of_same (s.same_next cfg trivial)
  | handle ev ans answered =>
    rw [NumberingGuard] at hguard
    split_ifs at hguard with hpass
    · exact h.handle_activate hpass.1 hpass.2 hguard
    · exact h.handle_report henabled.2.1 hpass hguard.1 hguard.2
  | lookup cardID row => exact h.lookup henabled hguard
  | flush batch copyWorks => exact h.flush henabled copyWorks
  | initCampaign campaignID cardIDs step updatedAt => exact h.initCampaign hguard
  | reset campaignID cardIDs step updatedAt =>
    obtain ⟨listed, hlisted, hreset⟩ :=
      exists_resetTransaction s.tables campaignID cardIDs step updatedAt
    rw [Engine.next, hreset]
    exact h.reset fun cardID hcard ↦ hguard cardID (hlisted hcard)
  | abort campaignID updatedAt => exact h.abort hguard

omit h

/-- A process that has just started has the stored rows and nothing else. -/
structure Engine.Started (s : Engine) : Prop where
  uncached : ∀ cardID, s.process.cardState cardID = none
  idle : s.stateCh = []
  untraced : s.trace = []

theorem numbering_of_started (h : s.Started) : Numbering s.tables.executionStates s := by
  have htransitions : s.transitions = [] := congrArg _ h.untraced
  have hhistory : s.history s.tables.executionStates = s.tables.executionStates := by
    rw [Engine.history, htransitions, append_nil]
  refine ⟨fun row hrow ↦ ?_, fun ch hch ↦ ?_, fun row hrow ↦ ?_, ?_, ?_, fun ch hch ↦ ?_,
    fun cardID st hst ↦ ?_⟩
  · rwa [hhistory]
  · rw [h.idle] at hch
    exact absurd hch not_mem_nil
  · rw [hhistory] at hrow
    exact Or.inl ⟨row, hrow, rfl, le_rfl⟩
  · rw [htransitions]
    exact .nil
  · rw [h.idle]
    exact nodup_nil
  · rw [h.idle] at hch
    exact absurd hch not_mem_nil
  · exact absurd (hst.symm.trans (h.uncached cardID)) (Option.some_ne_none st)

end Numbering

/-- **Transition numbers increase.** In every run under the guard, from whatever rows the table had,
the numbers of the transitions are in order in the state that is reached. -/
theorem transitions_increasing (cfg : EngineConfig) (s : Engine) (hstart : s.Started)
    {acts : List EngineAction} (hrun : (engine cfg).RunsUnder NumberingGuard s acts) :
    InOrderOfNumber s.tables.executionStates ((engine cfg).after s acts) :=
  (hrun.invariant (fun _ _ h henabled hguard ↦ h.next henabled hguard)
    (numbering_of_started hstart)).inOrder

/-! ## The second command of a campaign -/

namespace SecondActivation

/-- Commands that expect a response, without retries. -/
def ctx (steps : List ℤ) : CampaignContext := plainContext steps 1

def cfg (steps : List ℤ) : EngineConfig := plainConfig (ctx steps)

def activate : CardEvent := plainActivate (.ofDigit 1) (.ofDigit 3)

def response : CardEvent := plainResponse (.ofDigit 1) (.ofDigit 3)

def start : Engine := .new fun _ ↦ some .running

theorem started : start.Started := ⟨fun _ ↦ rfl, rfl, rfl⟩

def reached (steps : List ℤ) (acts : List EngineAction) : Engine :=
  (engine (cfg steps)).after start acts

/-- A call that reads the latest row of the card. -/
def answers (steps : List ℤ) (acts : List EngineAction) (msgID : UUID) : Answers :=
  .plain (ctx steps) msgID
    (latestRow (reached steps acts).tables.executionStates (.ofDigit 1, .ofDigit 3))

/-- The command is sent and the transition stored. -/
def sent (steps : List ℤ) : List EngineAction :=
  let acts : List EngineAction := [.initCampaign (.ofDigit 3) [.ofDigit 1] 1 0, .plan activate]
  let acts := acts ++ [.handle activate (answers steps acts (.ofDigit 6)) none]
  acts ++ [.flush (reached steps acts).stateCh true]

def answered (steps : List ℤ) : List EngineAction :=
  sent steps ++ [.handle response (answers steps (sent steps) (.ofDigit 7)) (some (.ofDigit 6))]

/-- There is one command, and the card is put back later. -/
def once : List EngineAction :=
  answered [1] ++ [.flush (reached [1] (answered [1])).stateCh true,
    .reset (.ofDigit 3) [.ofDigit 1] 1 0]

/-- There are two, and the second is sent. -/
def twice : List EngineAction :=
  answered [1, 2] ++ [.handle (activation (answers [1, 2] (sent [1, 2]) (.ofDigit 7)) (.ofDigit 1)
    (.ofDigit 3) 2 0) (answers [1, 2] (answered [1, 2]) (.ofDigit 8)) none]

end SecondActivation

open SecondActivation in
/-- The card is activated, answers and is put back: its transitions are numbered from zero to
three. -/
theorem transitions_increasing_once :
    (engine (cfg [1])).RunsUnder NumberingGuard start once ∧
      ((engine (cfg [1])).after start once).transitions.map ExecutionRow.transitionSeq
        = [0, 1, 2, 3] ∧
      InOrderOfNumber [] ((engine (cfg [1])).after start once) := by
  have hruns : (engine (cfg [1])).RunsUnder NumberingGuard start once := by
    have hinit : ∀ cardID ∈ [UUID.ofDigit 1],
        start.Unmoved (cardID, .ofDigit 3) ∧ start.AtRest cardID (.ofDigit 3) := by decide +kernel
    refine ⟨⟨trivial, hinit⟩, ⟨by decide +kernel, trivial⟩, ⟨by decide +kernel, ?_⟩,
      ⟨by decide +kernel, trivial⟩, ⟨by decide +kernel, ?_⟩, ⟨by decide +kernel, trivial⟩,
      ⟨trivial, ?_⟩, trivial⟩
    · rw [NumberingGuard, if_pos]
      · exact Or.inr (by decide +kernel)
      · decide +kernel
    · rw [NumberingGuard, if_neg]
      · decide +kernel
      · decide +kernel
    · rw [NumberingGuard]
      decide +kernel
  exact ⟨hruns, by decide +kernel, transitions_increasing (cfg [1]) start started hruns⟩

open SecondActivation in
/-- The second command has the number of the first: its row is discarded, and the card stays at the
first step. -/
theorem second_command_discarded :
    start.Started ∧ (engine (cfg [1, 2])).Runs start twice ∧
      (reached [1, 2] twice).emitted.map (fun ch ↦ (ch.currentStep, ch.transitionSeq))
        = [(1, 1), (2, 1)] ∧
      ((reached [1, 2] twice).next (cfg [1, 2])
        (.flush (reached [1, 2] twice).stateCh true)).tables.executionStates
          = (reached [1, 2] twice).tables.executionStates ∧
      ¬ InOrderOfNumber [] ((engine (cfg [1, 2])).after start twice) := by
  refine ⟨started, ?_, by decide +kernel, by decide +kernel, fun h ↦ ?_⟩
  · unfold Machine.Runs
    decide +kernel
  · exact absurd h.unconflicted (by decide +kernel)

end OtaPlatform
