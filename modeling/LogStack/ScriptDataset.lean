/-
The data sets of the generator (`generateEvents` of `scripts/generate-events.ts`).

A data set has the events of its visits, and copies of some of them; perhaps all of them are
shuffled in the end.  Its event ids are distinct, but for the copies.

* `duplicate_spec`, `perm_shuffle` — what is done to the events of the visits;
* `OfSeed` — the visits that a seed makes;
* `IsDataset` — what a data set is;
* `data_set` — the generator makes one, as long as its random numbers do not come again.
-/
import LogStack.GeneratedTraffic
import LogStack.ScriptVisits
import Mathlib.Data.Int.ConditionallyCompleteOrder
import Mathlib.Data.List.Perm.Basic

open Sampling
open Sender (Gen JsMath NearestMath Source floorRandom nearestMath)

namespace Dataset

/-! ### Copies and the shuffle -/

section Finish

variable {M : JsMath}

/-- By induction on the copies: each one is taken from the events or from the copies so far. -/
theorem duplicate_spec (M : NearestMath) (seed : ℤ) : ∀ (n : ℕ) (events : List Json),
    (events = [] → n = 0) → events.length + n ≤ 2 ^ 53 → ∀ i, ∃ copies,
      (duplicate M.toJsMath n events (scriptSource seed) i).1 = events ++ copies ∧
        copies.length = n ∧ ∀ c ∈ copies, c ∈ events
  | 0, events, _, _, _ => ⟨[], (List.append_nil events).symm, rfl, fun _ h => absurd h (by simp)⟩
  | n + 1, events, hne, hlength, i => by
    have hpos : 0 < events.length := List.length_pos_iff.mpr fun hnil => by
      have := hne hnil
      omega
    have hlt := floorRandom_lt M seed (i := i) hpos (by omega)
    set k := (floorRandom M.toJsMath events.length (scriptSource seed) i).1 with hk
    have hcopy : events.getD k (.obj []) ∈ events := by
      rw [List.getD_eq_getElem?_getD, List.getElem?_eq_getElem hlt, Option.getD_some]
      exact List.getElem_mem hlt
    obtain ⟨copies, hevents, hcount, hmem⟩ := duplicate_spec M seed n
      (events ++ [events.getD k (.obj [])]) (fun h => absurd h (by simp))
      (by rw [List.length_append, List.length_singleton]; omega) (i + 1)
    refine ⟨events.getD k (.obj []) :: copies, ?_, by rw [List.length_cons, hcount], ?_⟩
    · show (duplicate M.toJsMath n (events ++ [events.getD k (.obj [])]) (scriptSource seed)
        (i + 1)).1 = _
      rw [hevents, List.append_assoc, List.singleton_append]
    · intro c hc
      rcases List.mem_cons.mp hc with rfl | hc
      · exact hcopy
      · rcases List.mem_append.mp (hmem c hc) with hc | hc
        · exact hc
        · exact List.mem_singleton.mp hc ▸ hcopy

/-- Swaps only. -/
theorem perm_shuffle : ∀ (i : ℕ) (events : Array Json),
    Always (fun shuffled => shuffled.toList.Perm events.toList) (shuffle M i events)
  | 0, events => always_pure (List.Perm.refl _)
  | i + 1, events => always_bind always_true fun j _ =>
      (perm_shuffle i _).mono fun shuffled h => h.trans (by
        rw [Array.swapIfInBounds]
        split_ifs
        · exact (Array.swap_perm _ _).toList
        · exact List.Perm.refl _
        · exact List.Perm.refl _)

end Finish

/-! ### Data sets -/

variable (M : NearestMath) (o : GenerateOptions)

/-- The events of visits, copies of some of them, and perhaps a shuffle. -/
structure IsDataset (visits : List Visit) (copies events : List Json) : Prop where
  perm : events.Perm (visits.flatMap (Visit.toJson o) ++ copies)
  in_order : o.shuffle = false → events = visits.flatMap (Visit.toJson o) ++ copies
  /-- A user has one visit on a day at most; they are in the order of days and users. -/
  keys : (visits.map Visit.key).Sublist (userDays o)
  /-- All users come on the first day. -/
  first_day : ∀ p ∈ userDays o, p.1 = 0 → p ∈ visits.map Visit.key
  eventIds : (visits.flatMap Visit.eventIds).Nodup
  orders : ∃ k, visits.filterMap Visit.order? =
    (List.range' 1 k).map fun n => .str (orderId o n)
  copies_mem : ∀ c ∈ copies, c ∈ visits.flatMap (Visit.toJson o)
  copies_length : copies.length =
    duplicateCount M.toJsMath o (visits.flatMap (Visit.toJson o)).length

/-- The random numbers suffice, and no more events come again than there are. -/
structure GenerateOptions.Moderate : Prop where
  draws : o.days * o.users * (107 + 37 * mostActivities o) ≤ 2 ^ 32
  ratio : ∀ q ∈ o.duplicateRatio, q ≤ 1

variable {M o}

theorem length_userDays : (userDays o).length = o.days * o.users := by
  simp [userDays, List.length_flatMap]

/-- What the days of all users make of the seed. -/
structure OfSeed (M : NearestMath) (o : GenerateOptions) (visits : List Visit) : Prop where
  events : (play M.toJsMath o (userDays o) 0 (scriptSource o.seedNumber) 0).1
    = visits.flatMap (Visit.toJson o)
  keys : (visits.map Visit.key).Sublist (userDays o)
  first_day : ∀ p ∈ userDays o, p.1 = 0 → p ∈ visits.map Visit.key
  eventIds : (visits.flatMap Visit.eventIds).Nodup
  eventIds_uuid : ∀ id ∈ visits.flatMap Visit.eventIds, ∃ i, id = uuidAt o.seedNumber i
  eventIds_length : (visits.flatMap Visit.eventIds).length ≤ 2 ^ 32
  orders : ∃ k ≤ 2 ^ 32, visits.filterMap Visit.order? =
    (List.range' 1 k).map fun n => .str (orderId o n)

theorem exists_visits (M : NearestMath) (h : o.Moderate) : ∃ visits, OfSeed M o visits := by
  rcases Nat.eq_zero_or_pos (o.days * o.users) with hzero | hpos
  · have hnil : userDays o = [] := List.length_eq_zero_iff.mp (length_userDays.trans hzero)
    refine ⟨[], ?_, List.nil_sublist _, ?_, .nil, by simp, Nat.zero_le _, 0, Nat.zero_le _, rfl⟩
    · rw [hnil]
      rfl
    · rw [hnil]
      simp
  have hdraws := h.draws
  have hbound : 107 + 37 * mostActivities o ≤ 2 ^ 32 := (Nat.le_mul_of_pos_left _ hpos).trans hdraws
  have hdays : o.days * o.users ≤ 2 ^ 32 :=
    (Nat.le_mul_of_pos_right _ (by omega)).trans hdraws
  obtain ⟨ids, ⟨visits, hkeys, hfirst, last, hplays⟩, -, hmost, hids⟩ :=
    draws_play M o (by omega) (userDays o) 0 (by rw [length_userDays]; omega) 0
  set stop := (play M.toJsMath o (userDays o) 0 (scriptSource o.seedNumber) 0).2
  have hstop : stop ≤ 2 ^ 32 := by
    rw [length_userDays, Nat.mul_comm (mostActivities o)] at hmost
    omega
  have hids_eq : ids = visits.flatMap Visit.eventIds := hplays.ids
  rw [hids_eq] at hids
  refine ⟨visits, hplays.events, hkeys, hfirst, ?_, fun id hid => ?_, ?_, ?_⟩
  · -- the positions are below the period
    refine hids.nodup (List.Nodup.map_on (fun i hi j hj h => ?_) List.nodup_range')
    refine uuidAt_injOn o.seedNumber ?_ ?_ h
    · have hlt := (List.mem_range'_1.mp hi).2
      show i < 2 ^ 32
      omega
    · have hlt := (List.mem_range'_1.mp hj).2
      show j < 2 ^ 32
      omega
  · obtain ⟨i, -, rfl⟩ := List.mem_map.mp (hids.mem hid)
    exact ⟨i, rfl⟩
  · have hlength := hids.length_le
    rw [List.length_map, List.length_range'] at hlength
    omega
  · obtain ⟨k, hk, -, horders⟩ := hplays.orders
    have hlength := hkeys.length_le
    rw [List.length_map, length_userDays] at hlength
    exact ⟨k, by omega, horders⟩

theorem duplicateCount_le (M : NearestMath) (h : o.Moderate) {n : ℕ} (hn : n ≤ 2 ^ 53) :
    duplicateCount M.toJsMath o n ≤ n := by
  rw [duplicateCount]
  split_ifs with hpos
  · have hratio : o.duplicateRatio.getD 0 ≤ 1 := by
      cases hsome : o.duplicateRatio with
      | none => exact zero_le_one
      | some q => exact h.ratio q hsome
    refine Nat.floor_le_of_le ?_
    calc M.round (n * o.duplicateRatio.getD 0) ≤ M.round n :=
          M.round_mono (mul_le_of_le_one_right n.cast_nonneg hratio)
      _ = n := M.round_nat hn
  · exact Nat.zero_le n

/-- The visits, the copies, the shuffle. -/
theorem generateEvents_eq (M : JsMath) (o : GenerateOptions) (s : Source) :
    let first := play M o (userDays o) 0 s 0
    let copied := duplicate M (duplicateCount M o first.1.length) first.1 s first.2
    (generateEvents M o s 0).1 = if o.shuffle then
      (shuffle M (copied.1.length - 1) copied.1.toArray s copied.2).1.toList else copied.1 := by
  intro first copied
  show ((if o.shuffle then do
      let shuffled ← shuffle M (copied.1.length - 1) copied.1.toArray
      pure shuffled.toList
    else pure copied.1 : Gen (List Json)) s copied.2).1 = _
  split_ifs
  · rfl
  · rfl

theorem OfSeed.isDataset {visits : List Visit} (hseed : OfSeed M o visits) (h : o.Moderate) :
    ∃ copies, IsDataset M o visits copies
      (generateEvents M.toJsMath o (scriptSource o.seedNumber) 0).1 := by
  set first := visits.flatMap (Visit.toJson o) with hfirst_eq
  have hsame : first.length = (visits.flatMap Visit.eventIds).length := by
    simp only [hfirst_eq, List.length_flatMap, Visit.toJson, Visit.eventIds, List.length_map]
  have hlength := hseed.eventIds_length
  have hle := duplicateCount_le M h (n := first.length) (by omega)
  have hnil : first = [] → duplicateCount M.toJsMath o first.length = 0 := fun hnil => by
    rw [hnil, List.length_nil] at hle ⊢
    omega
  have hgenerate := generateEvents_eq M.toJsMath o (scriptSource o.seedNumber)
  dsimp only at hgenerate
  rw [hseed.events] at hgenerate
  obtain ⟨copies, hcopies, hcount, hmem⟩ := duplicate_spec M o.seedNumber
    (duplicateCount M.toJsMath o first.length) first hnil (by omega)
    (play M.toJsMath o (userDays o) 0 (scriptSource o.seedNumber) 0).2
  obtain ⟨k, -, horders⟩ := hseed.orders
  refine ⟨copies, ?_, ?_, hseed.keys, hseed.first_day, hseed.eventIds, ⟨k, horders⟩, hmem, hcount⟩
  · rw [hgenerate]
    split_ifs
    · refine (perm_shuffle _ _ _ _).trans ?_
      rw [hcopies]
    · rw [hcopies]
  · intro hshuffle
    rw [hgenerate, if_neg (by simp [hshuffle]), hcopies]

/-- **A generated data set.** As long as the random numbers do not come again, a seed makes visits
of distinct users on each day, whose events all have UUIDs of their own and whose purchases have
orders of their own; the rest are as many copies of these events as were asked for. -/
theorem data_set (M : NearestMath) (o : GenerateOptions) (h : o.Moderate) :
    ∃ visits copies, IsDataset M o visits copies
      (generateEvents M.toJsMath o (scriptSource o.seedNumber) 0).1 := by
  obtain ⟨visits, hseed⟩ := exists_visits M h
  exact ⟨visits, hseed.isDataset h⟩

/-! ### June for 300 users -/

/-- `--users 300 --days 31 --start 2026-06-01 --seed 7` -/
def juneOptions : GenerateOptions where
  users := 300
  startDay := 20605
  days := 31
  eventsPerUserPerDay := some 20
  duplicateRatio := some 0
  shuffle := false
  seed := some ⟨7, by norm_num⟩
  instanceId := none

theorem moderate_june : juneOptions.Moderate :=
  ⟨by decide +kernel, by simp [juneOptions]⟩

theorem data_set_june : ∃ visits copies, IsDataset nearestMath juneOptions visits copies
    (generateEvents nearestMath.toJsMath juneOptions (scriptSource juneOptions.seedNumber) 0).1 :=
  data_set nearestMath juneOptions moderate_june

end Dataset
