import OtaPlatform.Gsm0348.CommandPacket

/-!
# The redundancy check

`computeCRC` adds the octets of the header and of the data into a cyclic check. The second loop
starts where the first one stopped, so the check is one over `header ++ data`
(`computeCRC_eq_crcLoop`), and its octet `j` is the sum of the octets at the positions congruent to
`j` (`getElem?_crcLoop`).

Positions that are less than `length` apart fall into different octets of the check. A change of
octets within `length` consecutive positions therefore changes the sum of each class by one octet
at most, and the check with it (`computeCRC_ne_of_burst`).
-/

namespace OtaPlatform

open List

/-- At least one octet is changed, and all changes are within `n` consecutive positions. -/
structure Burst (n : ℕ) (sent received : Bytes) : Prop where
  length_eq : received.length = sent.length
  changed : received ≠ sent
  window : ∃ start, ∀ i, received[i]? ≠ sent[i]? → start ≤ i ∧ i < start + n

/-! ## The octets of the check -/

/-- The sum of the octets whose position, counted from `i` on, is congruent to `j`. -/
def column (n j : ℕ) : ℕ → Bytes → UInt8
  | _, [] => 0
  | i, b :: rest => (if i % n = j then b else 0) ^^^ column n j (i + 1) rest

theorem crcLoop_append (n i : ℕ) (a b crc : Bytes) :
    crcLoop n i (a ++ b) crc = crcLoop n (i + a.length) b (crcLoop n i a crc) := by
  induction a generalizing i crc with
  | nil => rfl
  | cons x a ih =>
    rw [cons_append, crcLoop, crcLoop, ih, length_cons, Nat.add_right_comm, Nat.add_assoc]

theorem computeCRC_eq_crcLoop (header data : Bytes) (n : ℕ) :
    computeCRC header data n = crcLoop n 0 (header ++ data) (replicate n 0) := by
  rw [crcLoop_append, Nat.zero_add, computeCRC]

theorem getElem?_crcLoop (n j i : ℕ) (input crc : Bytes) :
    (crcLoop n i input crc)[j]? = crc[j]?.map (· ^^^ column n j i input) := by
  induction input generalizing i crc with
  | nil => simp [crcLoop, column]
  | cons b rest ih =>
    rw [crcLoop, ih, getElem?_modify, column, Option.map_eq_map, Option.map_map]
    refine congrArg (Option.map · crc[j]?) (funext fun x ↦ ?_)
    by_cases hj : i % n = j
    · simp [hj, UInt8.xor_assoc]
    · simp [hj]

/-! ## Changed octets -/

theorem column_congr {n j i : ℕ} {l l' : Bytes} (hlength : l'.length = l.length)
    (hsame : ∀ k, (i + k) % n = j → l'[k]? = l[k]?) : column n j i l' = column n j i l := by
  induction l generalizing i l' with
  | nil => rw [eq_nil_of_length_eq_zero hlength]
  | cons b l ih =>
    obtain ⟨b', l', rfl⟩ := exists_cons_of_length_eq_add_one hlength
    have htail := ih (i := i + 1) (Nat.succ_injective hlength) fun k hk ↦ by
      simpa using hsame (k + 1) (by rwa [Nat.add_comm k 1, ← Nat.add_assoc])
    rw [column, column, htail]
    by_cases hi : i % n = j
    · rw [if_pos hi, if_pos hi, Option.some.inj (hsame 0 hi)]
    · rw [if_neg hi, if_neg hi]

/-- One changed octet among the positions of a class changes their sum. -/
theorem column_ne {n j i p : ℕ} {l l' : Bytes} (hlength : l'.length = l.length)
    (hp : (i + p) % n = j) (hchanged : l'[p]? ≠ l[p]?)
    (hsame : ∀ k, k ≠ p → (i + k) % n = j → l'[k]? = l[k]?) : column n j i l' ≠ column n j i l := by
  induction l generalizing i p l' with
  | nil =>
    rw [eq_nil_of_length_eq_zero hlength] at hchanged
    exact absurd rfl hchanged
  | cons b l ih =>
    obtain ⟨b', l', rfl⟩ := exists_cons_of_length_eq_add_one hlength
    rw [column, column]
    cases p with
    | zero =>
      have htail : column n j (i + 1) l' = column n j (i + 1) l :=
        column_congr (Nat.succ_injective hlength) fun k hk ↦ by
          simpa using hsame (k + 1) (Nat.succ_ne_zero k)
            (by rwa [Nat.add_comm k 1, ← Nat.add_assoc])
      rw [Nat.add_zero] at hp
      rw [htail, if_pos hp, if_pos hp]
      exact fun heq ↦ hchanged (congrArg some ((UInt8.xor_left_inj _).mp heq))
    | succ p =>
      have htail : column n j (i + 1) l' ≠ column n j (i + 1) l := by
        refine ih (p := p) (Nat.succ_injective hlength) ?_ (by simpa using hchanged) ?_
        · rwa [Nat.add_assoc, Nat.add_comm 1 p]
        · intro k hk hclass
          simpa using hsame (k + 1) (by omega) (by rwa [Nat.add_comm k 1, ← Nat.add_assoc])
      have hhead : (if i % n = j then b' else 0) = if i % n = j then b else 0 := by
        by_cases hi : i % n = j
        · rw [if_pos hi, if_pos hi, Option.some.inj (hsame 0 (Nat.succ_ne_zero p).symm hi)]
        · rw [if_neg hi, if_neg hi]
      rw [hhead]
      exact fun heq ↦ htail ((UInt8.xor_right_inj _).mp heq)

/-- A changed octet of a burst is the only one of its class. -/
theorem Burst.exists_column_ne {n : ℕ} {sent received : Bytes} (h : Burst n sent received) :
    ∃ j < n, column n j 0 received ≠ column n j 0 sent := by
  obtain ⟨start, hwindow⟩ := h.window
  obtain ⟨p, hp⟩ : ∃ p, received[p]? ≠ sent[p]? := by
    by_contra hsame
    exact h.changed (ext_getElem? fun p ↦ not_ne_iff.mp (not_exists.mp hsame p))
  have hpos := hwindow p hp
  refine ⟨p % n, Nat.mod_lt p (by omega), column_ne h.length_eq (by rw [Nat.zero_add]) hp ?_⟩
  intro k hk hclass
  by_contra hchanged
  have hkpos := hwindow k hchanged
  rw [Nat.zero_add] at hclass
  -- congruent positions of one window coincide
  rcases le_total k p with hle | hle
  · have hsub := Nat.sub_mod_eq_zero_of_mod_eq hclass.symm
    rw [Nat.mod_eq_of_lt (by omega)] at hsub
    omega
  · have hsub := Nat.sub_mod_eq_zero_of_mod_eq hclass
    rw [Nat.mod_eq_of_lt (by omega)] at hsub
    omega

theorem computeCRC_ne_of_burst {n : ℕ} {header header' data data' : Bytes}
    (h : Burst n (header ++ data) (header' ++ data')) :
    computeCRC header' data' n ≠ computeCRC header data n := by
  obtain ⟨j, hj, hne⟩ := h.exists_column_ne
  intro heq
  have hget := congrArg (·[j]?) heq
  simp only [computeCRC_eq_crcLoop, getElem?_crcLoop, getElem?_replicate, if_pos hj,
    Option.map_some, UInt8.zero_xor] at hget
  exact hne (Option.some.inj hget)

/-- **The check detects every burst of four octets**, also one across the end of the header. -/
theorem computeCRC_detects_burst {header header' data data' : Bytes}
    (h : Burst 4 (header ++ data) (header' ++ data')) :
    computeCRC header' data' 4 ≠ computeCRC header data 4 :=
  computeCRC_ne_of_burst h

theorem computeCRC_detects_burst_across :
    computeCRC [1, 2, 7] [9, 5] 4 ≠ computeCRC [1, 2, 3] [4, 5] 4 := by
  refine computeCRC_detects_burst ⟨rfl, by decide, 2, fun i hi ↦ ?_⟩
  rcases i with _ | _ | _ | _ | i
  · exact absurd rfl hi
  · exact absurd rfl hi
  · decide
  · decide
  · exact absurd rfl hi

end OtaPlatform
