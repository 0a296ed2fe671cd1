/-
The row of a day.

A query restricts its tables to the range of the request, groups, joins and fills the gaps.
What it says about a day of the range depends on the users and the purchases of that day
alone, and for a cohort on the whole history of its users.

* `activeUsers`, `payingUsers`, `engagedUsers`, `newUsers`, `returnedUsers`, `revenueOn` — a
  day in its own terms;
* `dauByDay_eq`, `retentionByCohort_eq`, `revenueByDay_eq`, `conversionByDay_eq`,
  `engagementByDayType_eq` — each query is the list of these rows for the days of the range.
-/
import LogStack.MetricsRepository
import Mathlib.Data.List.ProdSigma

open Ingestion Relational Calendar

namespace Metrics

/-! ### Days -/

section Days

variable {start stop d t : ℤ}

theorem inRange_iff : inRange start stop t = true ↔ start ≤ utcDay t ∧ utcDay t ≤ stop := by
  rw [inRange, Bool.and_eq_true, decide_eq_true_iff, decide_eq_true_iff, utcDay, DAY_MS]
  omega

theorem mem_generateSeries : d ∈ generateSeries start stop ↔ start ≤ d ∧ d ≤ stop := by
  simp only [generateSeries, List.mem_map, List.mem_range]
  constructor
  · rintro ⟨k, hk, rfl⟩
    omega
  · rintro ⟨hstart, hstop⟩
    exact ⟨(d - start).toNat, by omega, by omega⟩

theorem pairwise_generateSeries : (generateSeries start stop).Pairwise (· < ·) := by
  rw [generateSeries, List.pairwise_map]
  refine List.pairwise_lt_range.imp fun {m n} h => ?_
  omega

theorem nodup_generateSeries : (generateSeries start stop).Nodup :=
  pairwise_generateSeries.imp fun h => ne_of_lt h

theorem length_generateSeries :
    (generateSeries start stop).length = (stop + 1 - start).toNat := by
  rw [generateSeries, List.length_map, List.length_range]

/-- The rows of ascending days are in order. -/
theorem orderBy_generateSeries {ρ : Type} (day : ρ → ℤ) {row row' : ℤ → ρ}
    (hrow : ∀ d ∈ generateSeries start stop, row' d = row d) (hday : ∀ d, day (row d) = d) :
    orderBy (fun r r' => day r ≤ day r') ((generateSeries start stop).map row')
      = (generateSeries start stop).map row := by
  rw [List.map_congr_left hrow]
  refine List.mergeSort_of_pairwise (List.pairwise_map.mpr ?_)
  refine pairwise_generateSeries.imp fun {d d'} hlt => ?_
  rw [decide_eq_true_iff, hday, hday]
  exact hlt.le

/-- The range filter leaves every row of a day of the range. -/
theorem filter_inRange {α : Type} {rows : List α} {at_ : α → ℤ} (hd : start ≤ d ∧ d ≤ stop) :
    ((rows.filter fun r => inRange start stop (at_ r)).filter fun r => utcDay (at_ r) = d)
      = rows.filter fun r => utcDay (at_ r) = d := by
  rw [List.filter_filter]
  refine List.filter_congr fun r _ => ?_
  by_cases h : utcDay (at_ r) = d
  · simp [h, inRange_iff.mpr (h.symm ▸ hd)]
  · simp [h]

end Days

variable (db : Tables)

/-- The users who logged in on a day. -/
def activeUsers (day : ℤ) : Finset ℤ :=
  (((logins db).filter fun g => utcDay g.occurredAt = day).map GameEventRow.userId).toFinset

/-- The users of the purchases of a day. -/
def payingUsers (day : ℤ) : Finset ℤ :=
  ((db.purchases.filter fun p => utcDay p.occurredAt = day).map PurchaseRow.userId).toFinset

/-- The users with an event of a type on a day. -/
def engagedUsers (eventType : JsString) (day : ℤ) : Finset ℤ :=
  ((db.gameEvents.filter fun g => g.eventType = eventType && utcDay g.occurredAt = day).map
    GameEventRow.userId).toFinset

/-- The time of a user's first login. -/
def firstLoginAt (user : ℤ) : Option ℤ :=
  (((logins db).filter fun g => g.userId = user).map GameEventRow.occurredAt).min?

/-- The users whose first login falls on a day. -/
def newUsers (day : ℤ) : Finset ℤ :=
  ((logins db).map GameEventRow.userId).toFinset.filter fun u =>
    (firstLoginAt db u).map utcDay = some day

/-- The new users of a day who logged in exactly `n` days later. -/
def returnedUsers (n day : ℤ) : Finset ℤ :=
  (newUsers db day).filter fun u => u ∈ activeUsers db (day + n)

/-- The purchases of a day in a currency, added up. -/
def revenueOn (currency : JsString) (day : ℤ) : ℤ :=
  ((db.purchases.filter fun p => p.currency = currency && utcDay p.occurredAt = day).map
    PurchaseRow.amountMinor).sum

variable {db} {start stop d u : ℤ}

theorem mem_activeUsers : u ∈ activeUsers db d ↔
    ∃ g ∈ logins db, utcDay g.occurredAt = d ∧ g.userId = u := by
  simp only [activeUsers, List.mem_toFinset, List.mem_map, List.mem_filter, decide_eq_true_iff,
    and_assoc]

theorem mem_payingUsers : u ∈ payingUsers db d ↔
    ∃ p ∈ db.purchases, utcDay p.occurredAt = d ∧ p.userId = u := by
  simp only [payingUsers, List.mem_toFinset, List.mem_map, List.mem_filter, decide_eq_true_iff,
    and_assoc]

theorem mem_dailyActive : (d, u) ∈ dailyActive db start stop ↔
    (start ≤ d ∧ d ≤ stop) ∧ u ∈ activeUsers db d := by
  simp only [dailyActive, mem_distinct, loginsInRange, List.mem_map, List.mem_filter,
    inRange_iff, mem_activeUsers, Prod.mk.injEq]
  constructor
  · rintro ⟨g, ⟨hg, hrange⟩, rfl, rfl⟩
    exact ⟨hrange, g, hg, rfl, rfl⟩
  · rintro ⟨hrange, g, hg, rfl, rfl⟩
    exact ⟨g, ⟨hg, hrange⟩, rfl, rfl⟩

/-- One row of `daily_active` for each active user. -/
theorem length_dailyActive (hd : start ≤ d ∧ d ≤ stop) :
    ((dailyActive db start stop).filter fun a => a.1 = d).length = (activeUsers db d).card := by
  refine length_filter_eq_card Prod.snd nodup_distinct ?_ fun u => ?_
  · intro a ha a' ha' hcolumn
    exact Prod.ext ((of_decide_eq_true ha).trans (of_decide_eq_true ha').symm) hcolumn
  · constructor
    · intro hu
      exact ⟨(d, u), mem_dailyActive.mpr ⟨hd, hu⟩, decide_eq_true rfl, rfl⟩
    · rintro ⟨⟨d', u⟩, hmem, hday, rfl⟩
      obtain rfl := of_decide_eq_true hday
      exact (mem_dailyActive.mp hmem).2

theorem dauByDay_eq : dauByDay db start stop
    = (generateSeries start stop).map fun d => ⟨d, (activeUsers db d).card⟩ := by
  rw [dauByDay, groupBy_leftJoin nodup_generateSeries, List.map_map]
  refine orderBy_generateSeries DauDay.day (fun d hd => ?_) fun _ => rfl
  rw [Function.comp_apply, countSome_leftJoin_singleton,
    length_dailyActive (mem_generateSeries.mp hd)]

/-! ### Revenue -/

theorem countDistinct_loginsInRange (hd : start ≤ d ∧ d ≤ stop) :
    countDistinct GameEventRow.userId
        ((loginsInRange db start stop).filter fun g => utcDay g.occurredAt = d)
      = (activeUsers db d).card := by
  rw [countDistinct_eq_card, loginsInRange, filter_inRange hd, activeUsers]

theorem sum_purchasesInRange {currency : JsString} (hd : start ≤ d ∧ d ≤ stop) :
    ((((purchasesInRange db start stop).filter fun p => p.currency = currency).filter fun p =>
      utcDay p.occurredAt = d).map PurchaseRow.amountMinor).sum = revenueOn db currency d := by
  rw [revenueOn, purchasesInRange, List.filter_comm, filter_inRange hd, List.filter_filter]

theorem revenueByDay_eq (currency : JsString) : revenueByDay db start stop currency
    = (generateSeries start stop).map fun d =>
        ⟨d, revenueOn db currency d, (activeUsers db d).card⟩ := by
  rw [revenueByDay]
  simp only [leftJoin_groupBy, List.map_map]
  refine orderBy_generateSeries RevenueDay.day (fun d hd => ?_) fun _ => rfl
  have hrange := mem_generateSeries.mp hd
  simp only [Function.comp_apply, RevenueDay.mk.injEq, true_and]
  exact ⟨(coalesce_groupBy id rfl).trans (sum_purchasesInRange hrange),
    (coalesce_groupBy id rfl).trans (countDistinct_loginsInRange hrange)⟩

/-! ### Purchase conversion -/

theorem mem_dailyPaying : (d, u) ∈ distinct ((purchasesInRange db start stop).map fun p =>
      (utcDay p.occurredAt, p.userId)) ↔ (start ≤ d ∧ d ≤ stop) ∧ u ∈ payingUsers db d := by
  simp only [mem_distinct, purchasesInRange, List.mem_map, List.mem_filter, inRange_iff,
    mem_payingUsers, Prod.mk.injEq]
  constructor
  · rintro ⟨p, ⟨hp, hrange⟩, rfl, rfl⟩
    exact ⟨hrange, p, hp, rfl, rfl⟩
  · rintro ⟨hrange, p, hp, rfl, rfl⟩
    exact ⟨p, ⟨hp, hrange⟩, rfl, rfl⟩

/-- `daily_active LEFT JOIN daily_paying` tells of each active user whether they pay. -/
theorem leftJoin_pairs {xs ys : List (ℤ × ℤ)} (hnodup : ys.Nodup) :
    leftJoin (fun a p => decide (p.1 = a.1) && decide (p.2 = a.2)) xs ys
      = xs.map fun a => (a, ys.find? fun p => p.1 = a.1 && p.2 = a.2) := by
  refine leftJoin_eq_map fun a _ => length_filter_le_one (k := a) (hnodup.map fun _ _ h => h)
    fun p hp => ?_
  rw [Bool.and_eq_true, decide_eq_true_iff, decide_eq_true_iff] at hp
  exact Prod.ext hp.1 hp.2

theorem find?_pair {ys : List (ℤ × ℤ)} {a : ℤ × ℤ} :
    (ys.find? fun p => p.1 = a.1 && p.2 = a.2).isSome = true ↔ a ∈ ys := by
  rw [List.find?_isSome]
  constructor
  · rintro ⟨p, hp, heq⟩
    rw [Bool.and_eq_true, decide_eq_true_iff, decide_eq_true_iff] at heq
    exact (Prod.ext heq.1 heq.2 : p = a) ▸ hp
  · intro ha
    exact ⟨a, ha, by simp⟩

theorem conversionByDay_eq : conversionByDay db start stop
    = (generateSeries start stop).map fun d =>
        ⟨d, (activeUsers db d ∩ payingUsers db d).card, (activeUsers db d).card⟩ := by
  rw [conversionByDay, leftJoin_pairs nodup_distinct]
  simp only [leftJoin_groupBy, List.map_map]
  refine orderBy_generateSeries ConversionDay.day (fun d hd => ?_) fun _ => rfl
  have hrange := mem_generateSeries.mp hd
  simp only [Function.comp_apply, ConversionDay.mk.injEq, true_and]
  refine ⟨(coalesce_groupBy Prod.snd rfl).trans ?_, (coalesce_groupBy Prod.fst rfl).trans ?_⟩
  · simp only [List.filter_map, countSome_map, countSome_filter]
    refine length_filter_eq_card Prod.snd nodup_distinct (fun a ha a' ha' hcolumn => ?_)
      fun u => ?_
    · have hday := of_decide_eq_true (Bool.and_eq_true_iff.mp ha).2
      have hday' := of_decide_eq_true (Bool.and_eq_true_iff.mp ha').2
      exact Prod.ext (hday.trans hday'.symm) hcolumn
    · rw [Finset.mem_inter]
      constructor
      · rintro ⟨hactive, hpaying⟩
        refine ⟨(d, u), mem_dailyActive.mpr ⟨hrange, hactive⟩, ?_, rfl⟩
        rw [Bool.and_eq_true, Function.comp_apply, find?_pair, decide_eq_true_iff]
        exact ⟨mem_dailyPaying.mpr ⟨hrange, hpaying⟩, rfl⟩
      · rintro ⟨⟨d', u⟩, hmem, ha, rfl⟩
        rw [Bool.and_eq_true, find?_pair] at ha
        obtain rfl := of_decide_eq_true ha.2
        exact ⟨(mem_dailyActive.mp hmem).2, (mem_dailyPaying.mp ha.1).2⟩
  · simp only [List.filter_map, List.length_map]
    exact length_dailyActive hrange

/-! ### Retention -/

theorem mem_firstLogin {f : Option ℤ} : (u, f) ∈ firstLogin db ↔
    (∃ g ∈ logins db, g.userId = u) ∧ f = firstLoginAt db u := by
  simp only [firstLogin, groupBy, List.mem_map, List.mem_dedup, Prod.mk.injEq, firstLoginAt]
  constructor
  · rintro ⟨u, hu, rfl, rfl⟩
    exact ⟨hu, rfl⟩
  · rintro ⟨hu, rfl⟩
    exact ⟨u, hu, rfl, rfl⟩

theorem mem_newUsers : u ∈ newUsers db d ↔
    (∃ g ∈ logins db, g.userId = u) ∧ (firstLoginAt db u).map utcDay = some d := by
  simp only [newUsers, Finset.mem_filter, List.mem_toFinset, List.mem_map]

theorem mem_cohort : (u, d) ∈ cohort db start stop ↔
    (start ≤ d ∧ d ≤ stop) ∧ u ∈ newUsers db d := by
  simp only [cohort, List.mem_filterMap, Option.map_eq_some_iff, Option.filter_eq_some_iff,
    mem_newUsers, Prod.mk.injEq, inRange_iff]
  constructor
  · rintro ⟨⟨_, f⟩, hf, firstAt, ⟨rfl, hrange⟩, rfl, rfl⟩
    obtain ⟨hlogin, hfirst⟩ := mem_firstLogin.mp hf
    exact ⟨hrange, hlogin, firstAt, hfirst.symm, rfl⟩
  · rintro ⟨hrange, hlogin, firstAt, hfirst, rfl⟩
    exact ⟨(u, some firstAt), mem_firstLogin.mpr ⟨hlogin, hfirst.symm⟩, firstAt, ⟨rfl, hrange⟩,
      rfl, rfl⟩

theorem nodup_cohort : (cohort db start stop).Nodup := by
  have hfst : ((cohort db start stop).map Prod.fst).Sublist ((firstLogin db).map Prod.fst) := by
    rw [cohort]
    generalize firstLogin db = rows
    induction rows with
    | nil => exact List.Sublist.slnil
    | cons f rows ih =>
      cases h : f.2.filter (inRange start stop) with
      | none =>
        rw [List.filterMap_cons_none (by rw [h, Option.map_none])]
        exact ih.cons _
      | some firstAt =>
        rw [List.filterMap_cons_some (by rw [h, Option.map_some])]
        exact ih.cons_cons _
  have hnodup : ((firstLogin db).map Prod.fst).Nodup := by
    rw [firstLogin, map_fst_groupBy]
    exact List.nodup_dedup _
  exact List.Nodup.of_map _ (hnodup.sublist hfst)

theorem mem_loginDays : (u, d) ∈ loginDays db ↔ u ∈ activeUsers db d := by
  simp only [loginDays, mem_distinct, List.mem_map, mem_activeUsers, Prod.mk.injEq]
  constructor
  · rintro ⟨g, hg, rfl, rfl⟩
    exact ⟨g, hg, rfl, rfl⟩
  · rintro ⟨g, hg, rfl, rfl⟩
    exact ⟨g, hg, rfl, rfl⟩

theorem returnsAfter_iff {n : ℤ} {c l : ℤ × ℤ} :
    returnsAfter n c l = true ↔ l = (c.1, c.2 + n) := by
  rw [returnsAfter, Bool.and_eq_true, decide_eq_true_iff, decide_eq_true_iff, Prod.ext_iff]

/-- A left join with `login_days` finds at most the one login day. -/
theorem leftJoin_loginDays {α : Type} {n : ℤ} {c : α → ℤ × ℤ} {xs : List α} :
    leftJoin (fun x => returnsAfter n (c x)) xs (loginDays db)
      = xs.map fun x => (x, (loginDays db).find? (returnsAfter n (c x))) :=
  leftJoin_eq_map fun _ _ => length_filter_le_one
    (nodup_distinct.map fun _ _ h => h) fun _ hl => returnsAfter_iff.mp hl

theorem find?_returnsAfter {n : ℤ} {c : ℤ × ℤ} :
    ((loginDays db).find? (returnsAfter n c)).isSome = true ↔ c.1 ∈ activeUsers db (c.2 + n) := by
  rw [List.find?_isSome]
  constructor
  · rintro ⟨l, hl, hreturns⟩
    rw [returnsAfter_iff.mp hreturns] at hl
    exact mem_loginDays.mp hl
  · intro hactive
    exact ⟨_, mem_loginDays.mpr hactive, returnsAfter_iff.mpr rfl⟩

theorem length_cohort (hd : start ≤ d ∧ d ≤ stop) :
    ((cohort db start stop).filter fun c => c.2 = d).length = (newUsers db d).card := by
  refine length_filter_eq_card Prod.fst nodup_cohort (fun c hc c' hc' hcolumn => ?_) fun u => ?_
  · exact Prod.ext hcolumn ((of_decide_eq_true hc).trans (of_decide_eq_true hc').symm)
  · constructor
    · intro hu
      exact ⟨(u, d), mem_cohort.mpr ⟨hd, hu⟩, decide_eq_true rfl, rfl⟩
    · rintro ⟨⟨u, d'⟩, hmem, hday, rfl⟩
      obtain rfl := of_decide_eq_true hday
      exact (mem_cohort.mp hmem).2

theorem countSome_cohort (n : ℤ) (hd : start ≤ d ∧ d ≤ stop) :
    countSome (fun c => (loginDays db).find? (returnsAfter n c))
        ((cohort db start stop).filter fun c => c.2 = d)
      = (returnedUsers db n d).card := by
  rw [countSome_filter]
  refine length_filter_eq_card Prod.fst nodup_cohort (fun c hc c' hc' hcolumn => ?_) fun u => ?_
  · have hday := of_decide_eq_true (Bool.and_eq_true_iff.mp hc).2
    have hday' := of_decide_eq_true (Bool.and_eq_true_iff.mp hc').2
    exact Prod.ext hcolumn (hday.trans hday'.symm)
  · rw [returnedUsers, Finset.mem_filter]
    constructor
    · rintro ⟨hnew, hactive⟩
      refine ⟨(u, d), mem_cohort.mpr ⟨hd, hnew⟩, ?_, rfl⟩
      rw [Bool.and_eq_true, find?_returnsAfter, decide_eq_true_iff]
      exact ⟨hactive, rfl⟩
    · rintro ⟨⟨u, d'⟩, hmem, hc, rfl⟩
      rw [Bool.and_eq_true, find?_returnsAfter] at hc
      obtain rfl := of_decide_eq_true hc.2
      exact ⟨(mem_cohort.mp hmem).2, hc.1⟩

theorem retentionByCohort_eq : retentionByCohort db start stop
    = (generateSeries start stop).map fun d =>
        ⟨d, (newUsers db d).card, (returnedUsers db 1 d).card, (returnedUsers db 7 d).card,
          (returnedUsers db 30 d).card⟩ := by
  -- three joins that each find at most one row
  have hjoined : leftJoin (fun r => returnsAfter 30 r.1.1)
      (leftJoin (fun r => returnsAfter 7 r.1)
        (leftJoin (returnsAfter 1) (cohort db start stop) (loginDays db)) (loginDays db))
        (loginDays db)
      = (cohort db start stop).map fun c => (((c, (loginDays db).find? (returnsAfter 1 c)),
          (loginDays db).find? (returnsAfter 7 c)), (loginDays db).find? (returnsAfter 30 c)) := by
    rw [leftJoin_loginDays (c := fun c => c), leftJoin_loginDays, leftJoin_loginDays,
      List.map_map, List.map_map]
    rfl
  rw [retentionByCohort, hjoined]
  simp only [leftJoin_groupBy, List.map_map]
  refine orderBy_generateSeries CohortDay.cohortDate (fun d hd => ?_) fun _ => rfl
  have hrange := mem_generateSeries.mp hd
  simp only [Function.comp_apply, CohortDay.mk.injEq, true_and]
  refine ⟨?_, ?_, ?_, ?_⟩
  · refine (coalesce_groupBy Prod.fst rfl).trans ?_
    rw [List.filter_map, List.length_map]
    exact length_cohort hrange
  · refine (coalesce_groupBy (fun p : ℕ × ℕ × ℕ × ℕ => p.2.1) rfl).trans ?_
    simp only [List.filter_map, countSome_map]
    exact countSome_cohort 1 hrange
  · refine (coalesce_groupBy (fun p : ℕ × ℕ × ℕ × ℕ => p.2.2.1) rfl).trans ?_
    simp only [List.filter_map, countSome_map]
    exact countSome_cohort 7 hrange
  · refine (coalesce_groupBy (fun p : ℕ × ℕ × ℕ × ℕ => p.2.2.2) rfl).trans ?_
    simp only [List.filter_map, countSome_map]
    exact countSome_cohort 30 hrange

/-! ### Engagement -/

variable {collation : Collation} {eventTypes : List JsString} {eventType : JsString}

/-- Days first, then the names of the types. -/
def Collation.leKey (collation : Collation) (k k' : ℤ × JsString) : Bool :=
  k.1 < k'.1 || k.1 = k'.1 && collation.le k.2 k'.2

theorem leKey_iff {k k' : ℤ × JsString} : collation.leKey k k' = true ↔
    k.1 < k'.1 ∨ k.1 = k'.1 ∧ collation.le k.2 k'.2 = true := by
  rw [Collation.leKey, Bool.or_eq_true, Bool.and_eq_true, decide_eq_true_iff, decide_eq_true_iff]

/-- The grid of days and types in order. -/
theorem orderBy_product : orderBy collation.leKey (generateSeries start stop ×ˢ eventTypes)
    = generateSeries start stop ×ˢ orderBy collation.le eventTypes := by
  refine orderBy_eq ?_ ?_ ?_ ?_ ?_
  · intro a b c hab hbc
    rw [leKey_iff] at hab hbc ⊢
    rcases hab with hab | ⟨hab, hle⟩
    · rcases hbc with hbc | ⟨hbc, -⟩
      · exact .inl (hab.trans hbc)
      · exact .inl (hbc ▸ hab)
    · rcases hbc with hbc | ⟨hbc, hle'⟩
      · exact .inl (hab ▸ hbc)
      · exact .inr ⟨hab.trans hbc, collation.trans _ _ _ hle hle'⟩
  · intro a b
    rw [Bool.or_eq_true, leKey_iff, leKey_iff]
    have htotal := collation.total a.2 b.2
    rw [Bool.or_eq_true] at htotal
    rcases lt_trichotomy a.1 b.1 with hlt | heq | hlt
    · exact .inl (.inl hlt)
    · exact htotal.imp (fun h => .inr ⟨heq, h⟩) fun h => .inr ⟨heq.symm, h⟩
    · exact .inr (.inl hlt)
  · intro a b hab hba
    rw [leKey_iff] at hab hba
    rcases hab with hab | ⟨heq, hle⟩
    · rcases hba with hba | ⟨heq, -⟩
      · exact absurd hba hab.asymm
      · exact absurd heq hab.ne'
    · rcases hba with hba | ⟨-, hle'⟩
      · exact absurd heq hba.ne'
      · exact Prod.ext heq (collation.antisymm _ _ hle hle')
  · exact List.Perm.flatMap_left _ fun d _ =>
      ((List.mergeSort_perm eventTypes collation.le).symm.map _)
  · -- days are generated in order, so each day's types follow those of the day before
    have htypes := List.pairwise_mergeSort collation.trans collation.total eventTypes
    have hdays : (generateSeries start stop).Pairwise (· < ·) := pairwise_generateSeries
    generalize generateSeries start stop = days at hdays ⊢
    induction days with
    | nil => exact List.Pairwise.nil
    | cons d ds ih =>
      obtain ⟨hfirst, hdays⟩ := List.pairwise_cons.mp hdays
      rw [List.product_cons, List.pairwise_append]
      have hday : ((orderBy collation.le eventTypes).map fun t => (d, t)).Pairwise
          fun k k' => collation.leKey k k' = true := by
        refine List.pairwise_map.mpr (htypes.imp ?_)
        intro t t' h
        exact leKey_iff.mpr (.inr ⟨rfl, h⟩)
      refine ⟨hday, ih hdays, ?_⟩
      rintro _ hk ⟨d', t'⟩ hk'
      obtain ⟨t, -, rfl⟩ := List.mem_map.mp hk
      exact leKey_iff.mpr (.inl (hfirst d' (List.mem_product.mp hk').1))

/-- The rows of the grid are in order when the grid is. -/
theorem orderBy_grid {row row' : ℤ × JsString → EngagementDay}
    (hrow : ∀ k ∈ generateSeries start stop ×ˢ eventTypes, row' k = row k)
    (hday : ∀ k, (row k).day = k.1) (htype : ∀ k, (row k).eventType = k.2) :
    orderBy (fun r r' => r.day < r'.day || r.day = r'.day && collation.le r.eventType r'.eventType)
        ((generateSeries start stop ×ˢ eventTypes).map row')
      = (generateSeries start stop ×ˢ orderBy collation.le eventTypes).map row := by
  rw [List.map_congr_left hrow, ← orderBy_product, orderBy, orderBy, List.map_mergeSort]
  intro k _ k' _
  rw [hday, hday, htype, htype, Collation.leKey]

theorem mem_engagedUsers : u ∈ engagedUsers db eventType d ↔
    ∃ g ∈ db.gameEvents, (g.eventType = eventType ∧ utcDay g.occurredAt = d) ∧ g.userId = u := by
  simp only [engagedUsers, List.mem_toFinset, List.mem_map, List.mem_filter, Bool.and_eq_true,
    decide_eq_true_iff, and_assoc]

variable (db start stop eventTypes) in
/-- The query's `engaged`. -/
def engaged : List (ℤ × JsString × ℤ) :=
  distinct ((db.gameEvents.filter fun g =>
      decide (g.eventType ∈ eventTypes) && inRange start stop g.occurredAt).map fun g =>
    (utcDay g.occurredAt, g.eventType, g.userId))

theorem mem_engaged : (d, eventType, u) ∈ engaged db start stop eventTypes ↔
    (eventType ∈ eventTypes ∧ start ≤ d ∧ d ≤ stop) ∧ u ∈ engagedUsers db eventType d := by
  simp only [engaged, mem_distinct, List.mem_map, List.mem_filter, Bool.and_eq_true,
    decide_eq_true_iff, inRange_iff, mem_engagedUsers, Prod.mk.injEq]
  constructor
  · rintro ⟨g, ⟨hg, htype, hrange⟩, rfl, rfl, rfl⟩
    exact ⟨⟨htype, hrange⟩, g, hg, ⟨rfl, rfl⟩, rfl⟩
  · rintro ⟨⟨htype, hrange⟩, g, hg, ⟨rfl, rfl⟩, rfl⟩
    exact ⟨g, ⟨hg, htype, hrange⟩, rfl, rfl, rfl⟩

/-- The join counts the engaged users of a day and a type who are active on the day. -/
theorem length_engaged (htype : eventType ∈ eventTypes) (hd : start ≤ d ∧ d ≤ stop) :
    ((innerJoin (fun (e : ℤ × JsString × ℤ) (a : ℤ × ℤ) => a.1 = e.1 && a.2 = e.2.2)
        (engaged db start stop eventTypes) (dailyActive db start stop)).filter fun r =>
      (r.1.1, r.1.2.1) = (d, eventType)).length
      = (engagedUsers db eventType d ∩ activeUsers db d).card := by
  have hone : ∀ e ∈ engaged db start stop eventTypes, ((dailyActive db start stop).filter
      fun a => a.1 = e.1 && a.2 = e.2.2).length ≤ 1 := fun e _ =>
    length_filter_le_one (k := (e.1, e.2.2)) (nodup_distinct.map fun _ _ h => h) fun a ha => by
      rw [Bool.and_eq_true, decide_eq_true_iff, decide_eq_true_iff] at ha
      exact Prod.ext ha.1 ha.2
  have hfind : ∀ e : ℤ × JsString × ℤ, ((dailyActive db start stop).find?
      fun a => a.1 = e.1 && a.2 = e.2.2).isSome = true ↔
        (e.1, e.2.2) ∈ dailyActive db start stop := fun e =>
    find?_pair (a := (e.1, e.2.2))
  refine (length_filter_innerJoin (p := fun e => (e.1, e.2.1) = (d, eventType)) hone).trans ?_
  refine length_filter_eq_card (fun e => e.2.2) nodup_distinct (fun e he e' he' hcolumn => ?_)
    fun u => ?_
  · have hkey := of_decide_eq_true (Bool.and_eq_true_iff.mp he).2
    have hkey' := hkey.trans (of_decide_eq_true (Bool.and_eq_true_iff.mp he').2).symm
    rw [Prod.mk.injEq] at hkey'
    exact Prod.ext hkey'.1 (Prod.ext hkey'.2 hcolumn)
  · rw [Finset.mem_inter]
    constructor
    · rintro ⟨hengaged, hactive⟩
      refine ⟨(d, eventType, u), mem_engaged.mpr ⟨⟨htype, hd⟩, hengaged⟩, ?_, rfl⟩
      rw [Bool.and_eq_true, hfind, decide_eq_true_iff]
      exact ⟨mem_dailyActive.mpr ⟨hd, hactive⟩, rfl⟩
    · rintro ⟨⟨d', t, u⟩, hmem, he, rfl⟩
      rw [Bool.and_eq_true, hfind, decide_eq_true_iff, Prod.mk.injEq] at he
      obtain ⟨hactive, rfl, rfl⟩ := he
      exact ⟨(mem_engaged.mp hmem).2, (mem_dailyActive.mp hactive).2⟩

theorem engagementByDayType_eq : engagementByDayType db start stop collation eventTypes
    = (generateSeries start stop ×ˢ orderBy collation.le eventTypes).map fun k =>
        ⟨k.1, k.2, (engagedUsers db k.2 k.1 ∩ activeUsers db k.1).card,
          (activeUsers db k.1).card⟩ := by
  have hkey : (fun (k : ℤ × JsString) (c : (ℤ × JsString) × ℕ) =>
      decide (c.1.1 = k.1) && decide (c.1.2 = k.2)) = fun k c => decide (c.1 = k) := by
    funext k c
    rw [Bool.eq_iff_iff, Bool.and_eq_true, decide_eq_true_iff, decide_eq_true_iff,
      decide_eq_true_iff, Prod.ext_iff]
  rw [engagementByDayType]
  simp only [hkey, leftJoin_groupBy, List.map_map]
  refine orderBy_grid (fun k hk => ?_) (fun _ => rfl) fun _ => rfl
  obtain ⟨hd, htype⟩ := List.mem_product.mp hk
  have hrange := mem_generateSeries.mp hd
  simp only [Function.comp_apply, EngagementDay.mk.injEq, true_and]
  exact ⟨(coalesce_groupBy id rfl).trans (length_engaged htype hrange),
    (coalesce_groupBy id rfl).trans (length_dailyActive hrange)⟩

end Metrics
