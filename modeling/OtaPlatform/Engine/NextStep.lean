import Mathlib.Data.Finset.Max
import OtaPlatform.Engine.System

/-!
# The next command of a campaign

`advanceOrComplete` looks for the next command in one pass over the commands, in whatever order they
come. The variable that holds the best sequence so far starts at `-1`, and `-1` after the loop means
that there is no further command. The API asks for nothing but a sequence that is not zero, so `-1`
can be the sequence of a command.

## What the loop finds

`LoopFinds` is the invariant of the loop. A sequence below `-1` is found in any case: once the
variable is below `-1`, it is never taken for the marker. Sequences above `-1` are found unless `-1`
is a sequence after the step as well, because then the variable may have been reset in between.

* `nextStepAfter_eq`: the loop finds the next step if that is not `-1`.
* `selectsNextStep_iff`: a card goes on with the next step, and is completed when there is none,
  exactly if `-1` is not the next step.
-/

namespace OtaPlatform

open List Worker

/-! ## The next step -/

/-- The smallest sequence of a command after the step. -/
structure IsNextStep (commands : List CampaignCommand) (step next : ℤ) : Prop where
  lt : step < next
  exists_command : ∃ cmd ∈ commands, cmd.sequence = next
  le : ∀ cmd ∈ commands, step < cmd.sequence → next ≤ cmd.sequence

instance (commands : List CampaignCommand) (step next : ℤ) :
    Decidable (IsNextStep commands step next) :=
  decidable_of_iff (step < next ∧ (∃ cmd ∈ commands, cmd.sequence = next) ∧
      ∀ cmd ∈ commands, step < cmd.sequence → next ≤ cmd.sequence)
    ⟨fun h ↦ ⟨h.1, h.2.1, h.2.2⟩, fun h ↦ ⟨h.lt, h.exists_command, h.le⟩⟩

theorem exists_isNextStep {commands : List CampaignCommand} {step : ℤ} {cmd : CampaignCommand}
    (hcmd : cmd ∈ commands) (hlt : step < cmd.sequence) :
    ∃ next, IsNextStep commands step next := by
  have hlater : cmd ∈ (commands.filter fun c ↦ step < c.sequence).toFinset := by
    rw [mem_toFinset, mem_filter]
    exact ⟨hcmd, decide_eq_true hlt⟩
  obtain ⟨least, hleast, hmin⟩ :=
    Finset.exists_min_image _ CampaignCommand.sequence ⟨cmd, hlater⟩
  rw [mem_toFinset, mem_filter, decide_eq_true_eq] at hleast
  refine ⟨least.sequence, hleast.2, ⟨least, hleast.1, rfl⟩, fun c hc hcstep ↦ hmin c ?_⟩
  rw [mem_toFinset, mem_filter]
  exact ⟨hc, decide_eq_true hcstep⟩

/-! ## The loop -/

/-- What the variable of the loop is after these commands. -/
structure LoopFinds (commands : List CampaignCommand) (step nextStep : ℤ) : Prop where
  /-- It is the marker or the sequence of a command after the step. -/
  origin : nextStep = -1 ∨ step < nextStep ∧ ∃ cmd ∈ commands, cmd.sequence = nextStep
  le_of_lt : ∀ cmd ∈ commands, step < cmd.sequence → cmd.sequence < -1 → nextStep ≤ cmd.sequence
  /-- Without a command that looks like the marker it is the smallest. -/
  le_of_forall_ne : (∀ cmd ∈ commands, step < cmd.sequence → cmd.sequence ≠ -1) →
    ∀ cmd ∈ commands, step < cmd.sequence → nextStep ≠ -1 ∧ nextStep ≤ cmd.sequence

section Round

variable {commands : List CampaignCommand} {step nextStep : ℤ} {last : CampaignCommand}

private theorem mem_or_eq_of_mem_concat {cmd : CampaignCommand} (h : cmd ∈ commands ++ [last]) :
    cmd ∈ commands ∨ cmd = last := by
  rwa [mem_append, mem_singleton] at h

variable (h : LoopFinds commands step nextStep)

include h

theorem LoopFinds.keeps (hle : step < last.sequence → nextStep ≠ -1 ∧ nextStep ≤ last.sequence) :
    LoopFinds (commands ++ [last]) step nextStep := by
  refine ⟨?_, fun cmd hcmd hcstep hneg ↦ ?_, fun hne cmd hcmd hcstep ↦ ?_⟩
  · rcases h.origin with hnone | ⟨hlt, cmd, hcmd, hseq⟩
    · exact Or.inl hnone
    · exact Or.inr ⟨hlt, cmd, mem_append_left _ hcmd, hseq⟩
  · rcases mem_or_eq_of_mem_concat hcmd with hcmd | rfl
    · exact h.le_of_lt cmd hcmd hcstep hneg
    · exact (hle hcstep).2
  · rcases mem_or_eq_of_mem_concat hcmd with hcmd | rfl
    · exact h.le_of_forall_ne (fun c hc ↦ hne c (mem_append_left _ hc)) cmd hcmd hcstep
    · exact hle hcstep

theorem LoopFinds.takes
    (hgt : step < last.sequence) (htake : nextStep = -1 ∨ last.sequence < nextStep) :
    LoopFinds (commands ++ [last]) step last.sequence := by
  have hlast : last ∈ commands ++ [last] := mem_append_right _ (mem_singleton_self _)
  refine ⟨Or.inr ⟨hgt, last, hlast, rfl⟩, fun cmd hcmd hcstep hneg ↦ ?_,
    fun hne cmd hcmd hcstep ↦ ⟨hne last hlast hgt, ?_⟩⟩
  · rcases mem_or_eq_of_mem_concat hcmd with hcmd | rfl
    · have := h.le_of_lt cmd hcmd hcstep hneg
      omega
    · exact le_rfl
  · rcases mem_or_eq_of_mem_concat hcmd with hcmd | rfl
    · have := h.le_of_forall_ne (fun c hc ↦ hne c (mem_append_left _ hc)) cmd hcmd hcstep
      omega
    · exact le_rfl

theorem LoopFinds.round (last : CampaignCommand) :
    LoopFinds (commands ++ [last]) step (if last.sequence > step then
      if nextStep = -1 ∨ last.sequence < nextStep then last.sequence else nextStep
      else nextStep) := by
  split_ifs with hgt htake
  · exact h.takes hgt htake
  · rw [not_or, not_lt] at htake
    exact h.keeps fun _ ↦ htake
  · exact h.keeps fun hlt ↦ absurd hlt hgt

end Round

theorem loopFinds_nextStepAfter (commands : List CampaignCommand) (step : ℤ) :
    LoopFinds commands step (nextStepAfter commands step) := by
  induction commands using reverseRecOn with
  | nil =>
    exact ⟨Or.inl rfl, forall_mem_nil _,
      fun _ cmd hcmd ↦ absurd hcmd not_mem_nil⟩
  | append_singleton commands last ih =>
    rw [nextStepAfter, foldl_append, foldl_cons, foldl_nil, ← nextStepAfter]
    exact ih.round last

theorem nextStepAfter_of_forall_le {commands : List CampaignCommand} {step : ℤ}
    (h : ∀ cmd ∈ commands, cmd.sequence ≤ step) : nextStepAfter commands step = -1 := by
  rcases (loopFinds_nextStepAfter commands step).origin with hnone | ⟨hlt, cmd, hcmd, hseq⟩
  · exact hnone
  · have := h cmd hcmd
    omega

/-- **The loop finds the next step**, unless that is the marker. -/
theorem nextStepAfter_eq {commands : List CampaignCommand} {step next : ℤ}
    (h : IsNextStep commands step next) (hne : next ≠ -1) : nextStepAfter commands step = next := by
  have hfinds := loopFinds_nextStepAfter commands step
  obtain ⟨cmd, hcmd, rfl⟩ := h.exists_command
  -- below the marker by the one bound, above it by the other
  have hle : nextStepAfter commands step ≤ cmd.sequence ∧ nextStepAfter commands step ≠ -1 := by
    rcases lt_or_gt_of_ne hne with hneg | hpos
    · have := hfinds.le_of_lt cmd hcmd h.lt hneg
      omega
    · have hall : ∀ c ∈ commands, step < c.sequence → c.sequence ≠ -1 := by
        intro c hc hcstep
        have := h.le c hc hcstep
        omega
      exact (hfinds.le_of_forall_ne hall cmd hcmd h.lt).symm
  rcases hfinds.origin with hnone | ⟨hlt, found, hfound, hseq⟩
  · exact absurd hnone hle.2
  · have := h.le found hfound (by omega)
    omega

/-! ## What the worker does -/

def MarksCompleted (ans : Answers) (cardID campaignID : UUID) (step : ℤ)
    (commands : List CampaignCommand) (ref : ℕ) (s : Process) : Prop :=
  ∃ state : CardState, state.status = .completed ∧ WorkerOp.setNewCardState cardID state ∈
    (advanceOrComplete ans cardID campaignID step commands ref).calls workerSemantics s

/-- The call goes on with the next step, and marks the card as completed if and only if there is
none. -/
structure SelectsNextStep (ans : Answers) (cardID campaignID : UUID) (step : ℤ)
    (commands : List CampaignCommand) (ref : ℕ) (s : Process) : Prop where
  publishes : ∀ next, IsNextStep commands step next →
    (advanceOrComplete ans cardID campaignID step commands ref).run workerSemantics s
      = (publishEvent ans (activation ans cardID campaignID next 0)).run workerSemantics s
  completes : MarksCompleted ans cardID campaignID step commands ref s ↔
    ∀ cmd ∈ commands, cmd.sequence ≤ step

section Calls

variable (ans : Answers) (cardID campaignID : UUID) {step : ℤ} {commands : List CampaignCommand}
  (ref : ℕ) (s : Process)

theorem marksCompleted_iff : MarksCompleted ans cardID campaignID step commands ref s ↔
      nextStepAfter commands step = -1 := by
  rw [MarksCompleted, advanceOrComplete]
  split_ifs with hnext
  · refine iff_of_true ?_ hnext
    refine ⟨⟨campaignID, 0, .completed, 0, none, none,
      (s.states.objects cardID ref).transitionSeq + 1⟩, rfl, ?_⟩
    rw [Program.calls_bind, finishCard, Program.calls_bind]
    exact mem_append_right _ (mem_append_left _ (mem_singleton_self _))
  · refine iff_of_false ?_ hnext
    rintro ⟨state, -, hcall⟩
    rw [publishEvent] at hcall
    cases herr : ans.eventError with
    | some err =>
      rw [herr] at hcall
      cases hcall
    | none =>
      rw [herr] at hcall
      cases mem_singleton.mp hcall

private theorem outputs_publishEvent {ans : Answers} (herr : ans.eventError = none) (ev : CardEvent)
    (s : Process) : ((publishEvent ans ev).run workerSemantics s).outputs = [.event ev] := by
  rw [publishEvent, herr]
  rfl

theorem selectsNextStep_of_ne (hne : ∀ next, IsNextStep commands step next → next ≠ -1) :
    SelectsNextStep ans cardID campaignID step commands ref s := by
  refine ⟨fun next hnext ↦ ?_, ?_⟩
  · have heq := nextStepAfter_eq hnext (hne next hnext)
    rw [advanceOrComplete, heq, if_neg (hne next hnext)]
  · rw [marksCompleted_iff]
    refine ⟨fun hmarker cmd hcmd ↦ ?_, nextStepAfter_of_forall_le⟩
    by_contra hlt
    obtain ⟨next, hnext⟩ := exists_isNextStep hcmd (not_le.mp hlt)
    exact hne next hnext ((nextStepAfter_eq hnext (hne next hnext)).symm.trans hmarker)

/-- When the marker is the next step, the card is completed or goes on with another step. -/
theorem not_selectsNextStep {ans : Answers} (herr : ans.eventError = none)
    (hnext : IsNextStep commands step (-1)) :
    ¬ SelectsNextStep ans cardID campaignID step commands ref s := by
  intro h
  obtain ⟨cmd, hcmd, hseq⟩ := hnext.exists_command
  have hmarker : nextStepAfter commands step ≠ -1 := by
    intro hmarker
    have hle := h.completes.mp ((marksCompleted_iff ans cardID campaignID ref s).mpr hmarker)
      cmd hcmd
    have hlt := hnext.lt
    omega
  have hrun := congrArg Outcome.outputs (h.publishes (-1) hnext)
  rw [advanceOrComplete, if_neg hmarker, outputs_publishEvent herr, outputs_publishEvent herr,
    singleton_inj, Output.event.injEq] at hrun
  exact hmarker (congrArg CardEvent.step hrun)

end Calls

/-- **When the next step is selected.** In every call, exactly if the next step is not `-1`: either
no command has that sequence, or it does not come after the step, or another command comes before
it. -/
theorem selectsNextStep_iff (commands : List CampaignCommand) (step : ℤ) :
    (∀ ans cardID campaignID ref s,
        SelectsNextStep ans cardID campaignID step commands ref s) ↔
      ¬ IsNextStep commands step (-1) := by
  constructor
  · intro h hnext
    have herr : (Answers.plain (plainContext [] 0) (.ofDigit 0)).eventError = none := rfl
    exact not_selectsNextStep (.ofDigit 0) (.ofDigit 0) 0 (Engine.new fun _ ↦ none).process
      herr hnext (h _ _ _ _ _)
  · intro hne ans cardID campaignID ref s
    refine selectsNextStep_of_ne ans cardID campaignID ref s fun next hnext hmarker ↦ ?_
    rw [hmarker] at hnext
    exact hne hnext

/-- A campaign with the steps `-2` and `-1` completes a card after its first step. -/
theorem advanceOrComplete_skips_marker :
    IsNextStep (plainContext [-2, -1] 3).commands (-2) (-1) ∧
      MarksCompleted (.plain (plainContext [-2, -1] 3) (.ofDigit 7)) (.ofDigit 1) (.ofDigit 3) (-2)
        (plainContext [-2, -1] 3).commands 0 (Engine.new fun _ ↦ some .running).process ∧
      eventsOf ((advanceOrComplete (.plain (plainContext [-2, -1] 3) (.ofDigit 7)) (.ofDigit 1)
        (.ofDigit 3) (-2) (plainContext [-2, -1] 3).commands 0).run workerSemantics
          (Engine.new fun _ ↦ some .running).process).outputs = [] := by
  refine ⟨by decide, ?_, by decide +kernel⟩
  rw [marksCompleted_iff]
  decide

end OtaPlatform
