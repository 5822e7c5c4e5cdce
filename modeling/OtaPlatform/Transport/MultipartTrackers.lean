import Mathlib.Data.Bool.Count
import OtaPlatform.Transition.Machine
import OtaPlatform.Transport.Gateway

/-!
# Three trackers of messages in parts

The receipts of the parts of a message are counted in three places: by the in-process gateway, by
the coordination store of the gateway, and in Redis. Each keeps counters of its own. The first two
forget a message with the receipt of its last part; the one in Redis keeps it until it expires.

## What has been reported

What a tracker should know of a message is the number of parts that it was initialised with last,
and the results reported since (`tracked`). `Represents` says what each tracker makes of that.
From it follows for every call whether the three answers agree (`trackers_agree_iff`): they do
unless all parts of the message have been reported before.
-/

namespace OtaPlatform

open List Function

inductive TrackingError
  | noMultipartTracking
  | unexpectedLength (length : ℕ)
  | invalidTotal (msgID : String) (total : ℤ)
deriving DecidableEq

/-- What a tracker answers: all parts are resolved, and one of them failed. -/
abbrev PartAnswer := Except TrackingError (Bool × Bool)

/-! ## The in-process gateway -/

abbrev LocalParts (ι : Type) := ι → Option MultipartState

namespace LocalParts

variable {ι : Type} [DecidableEq ι]

def init (m : LocalParts ι) (msgID : ι) (totalParts : ℕ) : LocalParts ι :=
  update m msgID (some ⟨totalParts, 0, false⟩)

/-- `InProcessGateway.recordPartDLR`. -/
def recordPartDLR (m : LocalParts ι) (msgID : ι) (delivered : Bool) : LocalParts ι × PartAnswer :=
  match m msgID with
  | none => (m, .error .noMultipartTracking)
  | some state =>
    let resolved := state.resolved + 1
    let anyFailed := state.anyFailed || !delivered
    if resolved ≥ state.total then (update m msgID none, .ok (true, anyFailed))
    else (update m msgID (some ⟨state.total, resolved, anyFailed⟩), .ok (false, false))

end LocalParts

theorem Gateway.recordPartDLR_eq (g : Gateway) (msgID : UUID) (delivered : Bool) :
    g.recordPartDLR msgID delivered =
      ({ g with multipart := (LocalParts.recordPartDLR g.multipart msgID delivered).1 },
        (LocalParts.recordPartDLR g.multipart msgID delivered).2.toOption) := by
  rw [Gateway.recordPartDLR, LocalParts.recordPartDLR]
  cases g.multipart msgID with
  | none => rfl
  | some state =>
    simp only
    split_ifs <;> rfl

/-! ## The coordination store -/

structure CoordinationParts where
  total : ℕ
  delivered : ℕ
  failed : ℕ
deriving DecidableEq

def CoordinationParts.count (state : CoordinationParts) (delivered : Bool) : CoordinationParts :=
  if delivered then { state with delivered := state.delivered + 1 }
  else { state with failed := state.failed + 1 }

/-- The counters by message. -/
abbrev Multiparts := String → Option CoordinationParts

namespace Multiparts

/-- `GatewayCoordinationStore.InitMultipartTracking`. -/
def initMultipartTracking (m : Multiparts) (msgID : String) (totalParts : ℕ) : Multiparts :=
  update m msgID (some ⟨totalParts, 0, 0⟩)

/-- `GatewayCoordinationStore.RecordPartDLR`. -/
def recordPartDLR (m : Multiparts) (msgID : String) (delivered : Bool) :
    Multiparts × PartAnswer :=
  match m msgID with
  | none => (m, .error .noMultipartTracking)
  | some state =>
    let state := state.count delivered
    let resolved := state.delivered + state.failed ≥ state.total
    let hasFailed := state.failed > 0
    (update m msgID (if resolved then none else some state),
      .ok (resolved, hasFailed))

end Multiparts

/-! ## Redis -/

structure MultipartHash where
  total : ℤ
  delivered : ℤ
  failed : ℤ
deriving DecidableEq

abbrev RedisHashes := String → Option MultipartHash

namespace RedisHashes

def multipartKey (msgID : String) : String := "multipart:" ++ msgID

/-- `Client.InitMultipartTracking`, without the expiry. -/
def initMultipartTracking (db : RedisHashes) (msgID : String) (totalParts : ℕ) : RedisHashes :=
  update db (multipartKey msgID) (some ⟨totalParts, 0, 0⟩)

/-- The script. It increments one of the counters and returns all of them, after a flag that says
whether the message is known. -/
def recordPartDLRScript (db : RedisHashes) (key : String) (delivered : Bool) :
    RedisHashes × List ℤ :=
  match db key with
  | none => (db, [0, 0, 0, 0])
  | some hash =>
    let hash :=
      if delivered then { hash with delivered := hash.delivered + 1 }
      else { hash with failed := hash.failed + 1 }
    (update db key (some hash), [1, hash.total, hash.delivered, hash.failed])

/-- `Client.RecordPartDLR`. -/
def recordPartDLR (db : RedisHashes) (msgID : String) (delivered : Bool) :
    RedisHashes × PartAnswer :=
  let (db, result) := recordPartDLRScript db (multipartKey msgID) delivered
  (db,
    match result with
    | known :: total :: del :: fail :: _ =>
      if known = 0 then .error .noMultipartTracking
      else if total ≤ 0 then .error (.invalidTotal msgID total)
      else .ok (del + fail ≥ total, fail > 0)
    | _ => .error (.unexpectedLength result.length))

end RedisHashes

open RedisHashes

/-! ## All three -/

structure Trackers where
  gateway : LocalParts String
  coordination : Multiparts
  redis : RedisHashes

inductive TrackerAction
  | init (msgID : String) (totalParts : ℕ)
  | record (msgID : String) (delivered : Bool)
deriving DecidableEq

namespace Trackers

def start : Trackers := ⟨fun _ ↦ none, fun _ ↦ none, fun _ ↦ none⟩

def next (s : Trackers) : TrackerAction → Trackers
  | .init msgID totalParts =>
    ⟨s.gateway.init msgID totalParts, s.coordination.initMultipartTracking msgID totalParts,
      s.redis.initMultipartTracking msgID totalParts⟩
  | .record msgID delivered =>
    ⟨(s.gateway.recordPartDLR msgID delivered).1, (s.coordination.recordPartDLR msgID delivered).1,
      (s.redis.recordPartDLR msgID delivered).1⟩

/-- What the three answer to a result. -/
def answers (s : Trackers) (msgID : String) (delivered : Bool) : List PartAnswer :=
  [(s.gateway.recordPartDLR msgID delivered).2, (s.coordination.recordPartDLR msgID delivered).2,
    (s.redis.recordPartDLR msgID delivered).2]

end Trackers

/-- The trackers at work. Messages that are tracked have two parts at least. -/
def trackers : Machine Trackers TrackerAction where
  Enabled _ a :=
    match a with
    | .init _ totalParts => 2 ≤ totalParts
    | .record _ _ => True
  next := Trackers.next

/-- **Two answers agree.** Whether a part failed counts only when all are resolved. -/
def SameAnswer : PartAnswer → PartAnswer → Prop
  | .error err, .error err' => err = err'
  | .ok (allResolved, anyFailed), .ok (allResolved', anyFailed') =>
    allResolved = allResolved' ∧ (allResolved = true → anyFailed = anyFailed')
  | _, _ => False

/-- What has been reported of a message since it was initialised: the number of its parts and the
results. -/
def tracked (msgID : String) (past : List TrackerAction) : Option (ℕ × List Bool) :=
  past.foldl (fun known a ↦
    match a with
    | .init id totalParts => if id = msgID then some (totalParts, []) else known
    | .record id delivered =>
      if id = msgID then known.map fun k ↦ (k.1, k.2 ++ [delivered]) else known) none

/-- **The condition.** Not all parts of the message have been reported. -/
def ResultsOutstanding (past : List TrackerAction) (msgID : String) : Prop :=
  ∀ total results, tracked msgID past = some (total, results) → results.length < total

/-! ## What the trackers know -/

/-- What the three hold of a message. -/
structure Represents (known : Option (ℕ × List Bool)) (gateway : Option MultipartState)
    (coordination : Option CoordinationParts) (redis : Option MultipartHash) : Prop where
  unknown : known = none → gateway = none ∧ coordination = none ∧ redis = none
  total : ∀ total results, known = some (total, results) → 2 ≤ total
  redis : ∀ total results, known = some (total, results) →
    redis = some ⟨total, results.count true, results.count false⟩
  /-- The others know them as long as parts are outstanding. -/
  outstanding : ∀ total results, known = some (total, results) → results.length < total →
    gateway = some ⟨total, results.length, results.any (!·)⟩ ∧
      coordination = some ⟨total, results.count true, results.count false⟩
  /-- Afterwards they have forgotten the message. -/
  forgotten : ∀ total results, known = some (total, results) → total ≤ results.length →
    gateway = none ∧ coordination = none

theorem represents_none : Represents none none none none :=
  ⟨fun _ ↦ ⟨rfl, rfl, rfl⟩, by simp, by simp, by simp, by simp⟩

theorem represents_init {total : ℕ} (h : 2 ≤ total) :
    Represents (some (total, [])) (some ⟨total, 0, false⟩) (some ⟨total, 0, 0⟩)
      (some ⟨total, 0, 0⟩) := by
  refine ⟨by simp, ?_, ?_, ?_, ?_⟩
  · rintro _ _ ⟨⟩
    exact h
  · rintro _ _ ⟨⟩
    rfl
  · rintro _ _ ⟨⟩ _
    exact ⟨rfl, rfl⟩
  · rintro _ _ ⟨⟩ hle
    rw [length_nil] at hle
    omega

namespace Trackers

/-- What the trackers hold of every message is what was reported. -/
def Tracks (past : List TrackerAction) (s : Trackers) : Prop :=
  ∀ msgID, Represents (tracked msgID past) (s.gateway msgID) (s.coordination msgID)
    (s.redis (multipartKey msgID))

end Trackers

theorem multipartKey_injective : Injective multipartKey := by
  intro a b h
  exact (String.append_right_inj "multipart:").mp h

/-! ## One result -/

section Record

variable {known : Option (ℕ × List Bool)} {g : LocalParts String} {c : Multiparts} {r : RedisHashes}
  {msgID : String} {delivered : Bool}

theorem gateway_record_none (h : g msgID = none) :
    g.recordPartDLR msgID delivered = (g, .error .noMultipartTracking) := by
  rw [LocalParts.recordPartDLR, h]

theorem coordination_record_none (h : c msgID = none) :
    c.recordPartDLR msgID delivered = (c, .error .noMultipartTracking) := by
  rw [Multiparts.recordPartDLR, h]

theorem redis_record_none (h : r (multipartKey msgID) = none) :
    r.recordPartDLR msgID delivered = (r, .error .noMultipartTracking) := by
  rw [recordPartDLR, recordPartDLRScript, h]
  rfl

theorem gateway_record {total : ℕ} {results : List Bool}
    (h : g msgID = some ⟨total, results.length, results.any (!·)⟩) :
    g.recordPartDLR msgID delivered = if (results ++ [delivered]).length < total then
        (update g msgID
          (some ⟨total, (results ++ [delivered]).length, (results ++ [delivered]).any (!·)⟩),
          .ok (false, false))
      else (update g msgID none, .ok (true, (results ++ [delivered]).any (!·))) := by
  have hany : (results ++ [delivered]).any (!·) = (results.any (!·) || !delivered) := by simp
  rw [LocalParts.recordPartDLR, h, hany, length_append, length_singleton]
  by_cases hlt : results.length + 1 < total
  · rw [if_pos hlt]
    exact if_neg (not_le.mpr hlt)
  · rw [if_neg hlt]
    exact if_pos (not_lt.mp hlt)

theorem count_append_singleton (results : List Bool) (delivered : Bool) :
    (results ++ [delivered]).count true = results.count true + (if delivered then 1 else 0) ∧
      (results ++ [delivered]).count false =
        results.count false + (if delivered then 0 else 1) := by
  cases delivered <;> simp

theorem coordination_record {total : ℕ} {results : List Bool}
    (h : c msgID = some ⟨total, results.count true, results.count false⟩) :
    c.recordPartDLR msgID delivered = (update c msgID
        (if total ≤ (results ++ [delivered]).length then none else
          some ⟨total, (results ++ [delivered]).count true, (results ++ [delivered]).count false⟩),
        .ok (decide (total ≤ (results ++ [delivered]).length),
          decide (0 < (results ++ [delivered]).count false))) := by
  have hcount : CoordinationParts.count ⟨total, results.count true, results.count false⟩ delivered
      = ⟨total, (results ++ [delivered]).count true, (results ++ [delivered]).count false⟩ := by
    obtain ⟨htrue, hfalse⟩ := count_append_singleton results delivered
    rw [htrue, hfalse]
    cases delivered <;> rfl
  rw [Multiparts.recordPartDLR, h, ← count_true_add_count_false (results ++ [delivered])]
  simp only [hcount]

theorem redis_record {total : ℕ} {results : List Bool} (htotal : 0 < total)
    (h : r (multipartKey msgID) = some ⟨total, results.count true, results.count false⟩) :
    r.recordPartDLR msgID delivered = (update r (multipartKey msgID)
        (some ⟨total, (results ++ [delivered]).count true, (results ++ [delivered]).count false⟩),
        .ok (decide (total ≤ (results ++ [delivered]).length),
          decide (0 < (results ++ [delivered]).count false))) := by
  have hscript : r.recordPartDLRScript (multipartKey msgID) delivered =
      (update r (multipartKey msgID)
        (some ⟨total, (results ++ [delivered]).count true, (results ++ [delivered]).count false⟩),
        ([1, total, (results ++ [delivered]).count true, (results ++ [delivered]).count false]
          : List ℤ)) := by
    obtain ⟨htrue, hfalse⟩ := count_append_singleton results delivered
    rw [recordPartDLRScript, h, htrue, hfalse]
    cases delivered <;> simp
  have hpositive : ¬(total : ℤ) ≤ 0 := by omega
  rw [recordPartDLR, hscript, ← count_true_add_count_false (results ++ [delivered])]
  simp only [one_ne_zero, if_false, if_neg hpositive, ge_iff_le, gt_iff_lt, ← Nat.cast_add,
    Nat.cast_le, Int.natCast_pos]

/-- **One result.** What the three hold of the message afterwards is what was reported. -/
theorem Represents.record (delivered : Bool)
    (h : Represents known (g msgID) (c msgID) (r (multipartKey msgID))) :
    Represents (known.map fun k ↦ (k.1, k.2 ++ [delivered]))
      ((g.recordPartDLR msgID delivered).1 msgID) ((c.recordPartDLR msgID delivered).1 msgID)
      ((r.recordPartDLR msgID delivered).1 (multipartKey msgID)) := by
  cases known with
  | none =>
    obtain ⟨hg, hc, hr⟩ := h.unknown rfl
    rw [gateway_record_none hg, coordination_record_none hc, redis_record_none hr]
    exact h
  | some k =>
    obtain ⟨total, results⟩ := k
    have htotal := h.total total results rfl
    change Represents (some (total, results ++ [delivered])) _ _ _
    refine ⟨by simp, ?_, ?_, ?_, ?_⟩
    · rintro _ _ ⟨⟩
      exact htotal
    · rintro _ _ ⟨⟩
      rw [redis_record (by omega) (h.redis total results rfl)]
      exact update_self ..
    · rintro _ _ ⟨⟩ hlt
      -- Parts are outstanding after the result, and so they were before.
      have hbefore : results.length < total := by
        rw [length_append] at hlt
        exact lt_of_le_of_lt (Nat.le_add_right ..) hlt
      obtain ⟨hg, hc⟩ := h.outstanding total results rfl hbefore
      rw [gateway_record hg, if_pos hlt, coordination_record hc, if_neg (not_le.mpr hlt)]
      exact ⟨update_self .., update_self ..⟩
    · rintro _ _ ⟨⟩ hle
      rcases lt_or_ge results.length total with hbefore | hbefore
      · obtain ⟨hg, hc⟩ := h.outstanding total results rfl hbefore
        rw [gateway_record hg, if_neg (not_lt.mpr hle), coordination_record hc, if_pos hle]
        exact ⟨update_self .., update_self ..⟩
      · obtain ⟨hg, hc⟩ := h.forgotten total results rfl hbefore
        rw [gateway_record_none hg, coordination_record_none hc]
        exact ⟨hg, hc⟩

end Record

/-! ## The other messages -/

section Other

variable {msgID other : String} (h : other ≠ msgID) (delivered : Bool)
include h

theorem gateway_record_other (g : LocalParts String) :
    (g.recordPartDLR msgID delivered).1 other = g other := by
  rw [LocalParts.recordPartDLR]
  split
  · rfl
  · simp only
    split_ifs
    · exact update_of_ne h ..
    · exact update_of_ne h ..

theorem coordination_record_other (c : Multiparts) :
    (c.recordPartDLR msgID delivered).1 other = c other := by
  rw [Multiparts.recordPartDLR]
  split
  · rfl
  · exact update_of_ne h ..

theorem redis_record_other (r : RedisHashes) :
    (r.recordPartDLR msgID delivered).1 (multipartKey other) = r (multipartKey other) := by
  have hkey := multipartKey_injective.ne h
  change (r.recordPartDLRScript (multipartKey msgID) delivered).1 _ = _
  rw [recordPartDLRScript]
  split
  · rfl
  · exact update_of_ne hkey ..

end Other

/-! ## Whole runs -/

theorem Trackers.Tracks.next {past : List TrackerAction} {s : Trackers} {a : TrackerAction}
    (h : Tracks past s) (hen : trackers.Enabled s a) : Tracks (past ++ [a]) (s.next a) := by
  intro other
  rw [tracked, foldl_append, foldl_cons, foldl_nil, ← tracked]
  cases a with
  | init msgID totalParts =>
    by_cases heq : msgID = other
    · subst heq
      simp only [if_true, Trackers.next, LocalParts.init, Multiparts.initMultipartTracking,
        initMultipartTracking, update_self]
      exact represents_init hen
    · have hne : other ≠ msgID := Ne.symm heq
      simp only [if_neg heq, Trackers.next, LocalParts.init, Multiparts.initMultipartTracking,
        initMultipartTracking, update_of_ne hne, update_of_ne (multipartKey_injective.ne hne)]
      exact h other
  | record msgID delivered =>
    by_cases heq : msgID = other
    · subst heq
      simp only [if_true]
      exact (h msgID).record delivered
    · have hne : other ≠ msgID := Ne.symm heq
      simp only [if_neg heq, Trackers.next, gateway_record_other hne,
        coordination_record_other hne, redis_record_other hne]
      exact h other

theorem tracks_of_runs {past : List TrackerAction} (h : trackers.Runs Trackers.start past) :
    Trackers.Tracks past (trackers.after Trackers.start past) := by
  refine Machine.RunsUnder.history_invariant h ?_ ?_
  · intro past s a hs hen _
    exact hs.next hen
  · intro msgID
    exact represents_none

/-! ## The answers -/

theorem SameAnswer.refl : ∀ answer, SameAnswer answer answer
  | .error _ => rfl
  | .ok _ => ⟨rfl, fun _ ↦ rfl⟩

theorem pairwise_sameAnswer_iff (a b c : PartAnswer) :
    [a, b, c].Pairwise SameAnswer ↔ SameAnswer a b ∧ SameAnswer a c ∧ SameAnswer b c := by
  simp [and_assoc]

theorem any_not_eq (results : List Bool) : results.any (!·) = decide (0 < results.count false) := by
  rw [Bool.eq_iff_iff, decide_eq_true_iff, count_pos_iff]
  simp

section Answers

variable {s : Trackers} {msgID : String} {total : ℕ} {results : List Bool}

/-- While parts are outstanding the flag of the gateway and the counters of the others say the
same. -/
theorem answers_agree_of_outstanding (delivered : Bool) (htotal : 0 < total)
    (hg : s.gateway msgID = some ⟨total, results.length, results.any (!·)⟩)
    (hc : s.coordination msgID = some ⟨total, results.count true, results.count false⟩)
    (hr : s.redis (multipartKey msgID) = some ⟨total, results.count true, results.count false⟩) :
    (s.answers msgID delivered).Pairwise SameAnswer := by
  rw [Trackers.answers, pairwise_sameAnswer_iff, gateway_record hg, coordination_record hc,
    redis_record htotal hr]
  have hsame : SameAnswer
      (if (results ++ [delivered]).length < total then .ok (false, false)
      else .ok (true, (results ++ [delivered]).any (!·)))
      (.ok (decide (total ≤ (results ++ [delivered]).length),
        decide (0 < (results ++ [delivered]).count false))) := by
    split_ifs with hlt
    · exact ⟨(decide_eq_false (not_le.mpr hlt)).symm, fun h ↦ absurd h (by simp)⟩
    · exact ⟨(decide_eq_true (not_lt.mp hlt)).symm, fun _ ↦ any_not_eq _⟩
  rw [apply_ite Prod.snd]
  exact ⟨hsame, hsame, SameAnswer.refl _⟩

/-- A result that comes too late is refused by the gateway and counted by Redis. -/
theorem not_answers_agree_of_forgotten (delivered : Bool) (htotal : 0 < total)
    (hg : s.gateway msgID = none) (hr : s.redis (multipartKey msgID)
      = some ⟨total, results.count true, results.count false⟩) :
    ¬(s.answers msgID delivered).Pairwise SameAnswer := by
  rw [Trackers.answers, pairwise_sameAnswer_iff, gateway_record_none hg, redis_record htotal hr]
  rintro ⟨-, h, -⟩
  exact h

end Answers

/-- **When the trackers agree.** After any sequence of initialisations and results, the three give
the same answer to the next result of a message if and only if not all of its parts have been
reported since it was initialised. -/
theorem trackers_agree_iff (past : List TrackerAction) (h : trackers.Runs Trackers.start past)
    (msgID : String) (delivered : Bool) :
    ((trackers.after Trackers.start past).answers msgID delivered).Pairwise SameAnswer ↔
      ResultsOutstanding past msgID := by
  have hrep := tracks_of_runs h msgID
  cases hknown : tracked msgID past with
  | none =>
    obtain ⟨hg, hc, hr⟩ := hrep.unknown hknown
    refine iff_of_true ?_ ?_
    · rw [Trackers.answers, pairwise_sameAnswer_iff, gateway_record_none hg,
        coordination_record_none hc, redis_record_none hr]
      exact ⟨rfl, rfl, rfl⟩
    · intro total results hsome
      rw [hknown] at hsome
      cases hsome
  | some k =>
    obtain ⟨total, results⟩ := k
    have htotal : 0 < total := lt_of_lt_of_le two_pos (hrep.total total results hknown)
    have hr := hrep.redis total results hknown
    rcases lt_or_ge results.length total with hlt | hle
    · obtain ⟨hg, hc⟩ := hrep.outstanding total results hknown hlt
      refine iff_of_true (answers_agree_of_outstanding delivered htotal hg hc hr) ?_
      intro total' results' hsome
      rw [hknown] at hsome
      cases hsome
      exact hlt
    · obtain ⟨hg, -⟩ := hrep.forgotten total results hknown hle
      refine iff_of_false (not_answers_agree_of_forgotten delivered htotal hg hr) ?_
      intro hout
      exact absurd (hout total results hknown) (not_lt.mpr hle)

/-- A message of two parts, after its first result. -/
theorem trackers_agree_iff_second_part :
    trackers.Runs Trackers.start [.init "m" 2, .record "m" false] ∧
      ((trackers.after Trackers.start [.init "m" 2, .record "m" false]).answers "m"
        true).Pairwise SameAnswer := by
  have hruns : trackers.Runs Trackers.start [.init "m" 2, .record "m" false] :=
    ⟨⟨le_refl 2, trivial⟩, ⟨trivial, trivial⟩, trivial⟩
  refine ⟨hruns, (trackers_agree_iff _ hruns "m" true).mpr ?_⟩
  rintro total results h
  cases h
  exact Nat.one_lt_two

/-- A third receipt of a message of two parts is refused by the gateway and by the coordination
store, and Redis answers that all parts are resolved. -/
theorem third_receipt_disagrees :
    trackers.Runs Trackers.start [.init "m" 2, .record "m" true, .record "m" true] ∧
      (trackers.after Trackers.start [.init "m" 2, .record "m" true, .record "m" true]).answers "m"
        true = [.error .noMultipartTracking, .error .noMultipartTracking, .ok (true, false)] ∧
      ¬((trackers.after Trackers.start
        [.init "m" 2, .record "m" true, .record "m" true]).answers "m" true).Pairwise
        SameAnswer := by
  refine ⟨⟨⟨le_refl 2, trivial⟩, ⟨trivial, trivial⟩, ⟨trivial, trivial⟩, trivial⟩, rfl, ?_⟩
  rintro (_ | ⟨h, _⟩)
  exact h (.ok (true, false)) (by decide)

end OtaPlatform
