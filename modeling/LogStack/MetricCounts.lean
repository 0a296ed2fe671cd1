/-
What the figures count.

The rows of the cohort, the conversion and the engagement queries are counts of sets of users,
given here by the events of those users and not by the queries.

* `Did`, `Purchased`, `NewOn` — what a user did on a day;
* `OverRange` — what holds of all rows of every valid request, page after page;
* `ShownRate` — a rate is the share of a part in a whole, rounded, or null;
* `retention_defined` — the retention of a cohort;
* `ratio_metrics` — conversion and engagement.
-/
import LogStack.JsText
import LogStack.MetricWindows
import Mathlib.Data.Set.Card
import Mathlib.Order.Bounds.Basic

open Ingestion Relational Calendar

namespace Metrics

/-! ### Users -/

variable (db : Tables)

/-- A user has an event of a type on a day. -/
def Did (eventType : JsString) (d u : ℤ) : Prop :=
  ∃ g ∈ db.gameEvents, (g.eventType = eventType ∧ utcDay g.occurredAt = d) ∧ g.userId = u

abbrev LoggedIn (d u : ℤ) : Prop := Did db EventType.sessionLogin.name d u

def Purchased (d u : ℤ) : Prop := ∃ p ∈ db.purchases, utcDay p.occurredAt = d ∧ p.userId = u

/-- The times of a user's logins, over the whole history. -/
def loginTimes (u : ℤ) : Set ℤ :=
  {t | ∃ g ∈ db.gameEvents, (g.eventType = EventType.sessionLogin.name ∧ g.userId = u) ∧
    g.occurredAt = t}

/-- The earliest login of a user falls on a day. -/
def NewOn (d u : ℤ) : Prop := ∃ t, IsLeast (loginTimes db u) t ∧ utcDay t = d

variable {db} {d u start stop : ℤ}

theorem mem_logins {g : GameEventRow} : g ∈ logins db ↔
    g ∈ db.gameEvents ∧ g.eventType = EventType.sessionLogin.name := by
  rw [logins, List.mem_filter, isLogin, decide_eq_true_iff]

theorem mem_activeUsers_iff : u ∈ activeUsers db d ↔ LoggedIn db d u := by
  rw [mem_activeUsers, LoggedIn, Did]
  simp only [mem_logins, and_assoc]

theorem mem_engagedUsers_iff {eventType : JsString} :
    u ∈ engagedUsers db eventType d ↔ Did db eventType d u := mem_engagedUsers

theorem mem_payingUsers_iff : u ∈ payingUsers db d ↔ Purchased db d u := mem_payingUsers

theorem mem_loginTimes {t : ℤ} : t ∈ loginTimes db u ↔
    t ∈ ((logins db).filter fun g => g.userId = u).map GameEventRow.occurredAt := by
  simp only [loginTimes, Set.mem_ofPred_eq, List.mem_map, List.mem_filter, mem_logins,
    decide_eq_true_iff, and_assoc]

theorem firstLoginAt_eq_some {t : ℤ} :
    firstLoginAt db u = some t ↔ IsLeast (loginTimes db u) t := by
  rw [firstLoginAt, List.min?_eq_some_iff]
  exact and_congr mem_loginTimes.symm
    ⟨fun h s hs => h s (mem_loginTimes.mp hs), fun h s hs => h (mem_loginTimes.mpr hs)⟩

theorem mem_newUsers_iff : u ∈ newUsers db d ↔ NewOn db d u := by
  rw [mem_newUsers, NewOn]
  simp only [Option.map_eq_some_iff, firstLoginAt_eq_some]
  refine and_iff_right_of_imp ?_
  rintro ⟨t, hleast, -⟩
  obtain ⟨g, hg, ⟨hlogin, hu⟩, -⟩ := hleast.1
  exact ⟨g, mem_logins.mpr ⟨hg, hlogin⟩, hu⟩

/-- A user who has ever logged in is new on one day. -/
theorem existsUnique_newOn (h : (loginTimes db u).Nonempty) : ∃! d, NewOn db d u := by
  obtain ⟨t, ht⟩ := h
  have hne : ((logins db).filter fun g => g.userId = u).map GameEventRow.occurredAt ≠ [] :=
    List.ne_nil_of_mem (mem_loginTimes.mp ht)
  obtain ⟨first, hfirst⟩ := Option.ne_none_iff_exists'.mp fun hnone =>
    hne (List.min?_eq_none_iff.mp hnone)
  have hleast := firstLoginAt_eq_some.mp hfirst
  refine ⟨utcDay first, ⟨first, hleast, rfl⟩, ?_⟩
  rintro d ⟨s, hs, rfl⟩
  rw [hs.unique hleast]

/-- A set of users is counted by a finite set with the same members. -/
theorem encard_eq_card {P : ℤ → Prop} (users : Finset ℤ) (h : ∀ u, u ∈ users ↔ P u) :
    {u | P u}.encard = users.card := by
  rw [← Set.encard_coe_eq_coe_finsetCard]
  exact congrArg Set.encard (Set.ext fun u => (h u).symm)

/-! ### All rows of a range -/

section Rows

variable {S R T : Type}

/-- The pages of a request, one after another. -/
def allRows (respond : MetricsQuery → Except MetricsError (Response S R)) (query : MetricsQuery)
    (pages : ℕ) : List R :=
  (List.range pages).flatMap fun k => dataOf (respond { query with page := some k.succPNat })

/-- Every valid request is answered, and its summary and all of its rows have a property. -/
def OverRange (respond : MetricsQuery → Except MetricsError (Response S R))
    (P : ℤ → ℤ → S → List R → Prop) : Prop :=
  ∀ query startDay endDay, ValidRange query startDay endDay →
    ∃ response, respond query = .ok response ∧
      ∀ pages, response.info.total ≤ pages * response.info.pageSize →
        P startDay endDay response.summary (allRows respond query pages)

theorem overRange_of_windows {respond : MetricsQuery → Except MetricsError (Response S R)}
    {table : ℤ → List R} {date : R → JsString} {label : R → T} {P : ℤ → ℤ → S → List R → Prop}
    (hwindows : Windows respond table date label)
    (h : ∀ query (startDay endDay : ℕ) response, ValidRange query startDay endDay →
      respond query = .ok response →
        P startDay endDay response.summary ((generateSeries startDay endDay).flatMap table)) :
    OverRange respond P := by
  intro query startDay endDay hvalid
  obtain ⟨response, hresponse, hwindow, -⟩ := hwindows query startDay endDay hvalid
  refine ⟨response, hresponse, fun pages hpages => ?_⟩
  rw [hwindow.total] at hpages
  rw [allRows, hwindow.pages pages hpages]
  exact h query startDay endDay response hvalid hresponse

/-- The days that the service computes from the texts of a valid range. -/
theorem toEpochDay_of_valid {query : MetricsQuery} {startDay endDay : ℕ}
    (h : ValidRange query startDay endDay) :
    toEpochDay query.start = startDay ∧ toEpochDay query.stop = endDay := by
  obtain ⟨-, -, hstart⟩ := parseDate?_eq_some h.start
  obtain ⟨-, -, hstop⟩ := parseDate?_eq_some h.stop
  exact ⟨hstart, hstop⟩

/-- One row for each day. -/
theorem flatMap_single {days : List ℤ} {row : ℤ → R} :
    (days.flatMap fun d => [row d]) = days.map row := List.flatMap_pure_eq_map _ _

theorem parseRange_of_valid {query : MetricsQuery} {startDay endDay : ℕ}
    (h : ValidRange query startDay endDay) :
    parseRange query = .ok ⟨query.start, query.stop, endDay - startDay + 1, startDay⟩ :=
  parseRange_eq_ok.mpr ⟨startDay, endDay, h.start, h.stop, h.order, h.days, rfl⟩

end Rows

/-! ### Rates -/

/-- A rate as a response shows it: null, or the share of `part` in `whole`, rounded to a double
and to four places. -/
structure ShownRate (D : Doubles) (isNull : Prop) (part whole : ℕ) (shown : Option ℚ) : Prop where
  part_le : part ≤ whole
  none_iff : shown = none ↔ isNull
  value : ¬isNull → shown = some (round4 D.round (D.round (part / whole)))
  share : 0 ≤ (part : ℚ) / whole ∧ (part : ℚ) / whole ≤ 1
  unit : ∀ q ∈ shown, 0 ≤ q ∧ q ≤ 1

section Rates

variable {D : Doubles}

theorem share_unit {part whole : ℕ} (h : part ≤ whole) :
    0 ≤ (part : ℚ) / whole ∧ (part : ℚ) / whole ≤ 1 :=
  ⟨by positivity, div_le_one_of_le₀ (by exact_mod_cast h) (Nat.cast_nonneg whole)⟩

/-- Rounding to four places does not leave the unit interval. -/
theorem round4_unit {q : ℚ} (h : 0 ≤ q ∧ q ≤ 1) :
    0 ≤ round4 D.round q ∧ round4 D.round q ≤ 1 := by
  have hzero := D.round_int 0 (by norm_num)
  have htop := D.round_int 10000 (by norm_num)
  push_cast at hzero htop
  have hlow : 0 ≤ D.round (q * 10000) := hzero ▸ D.round_mono (by linarith)
  have hhigh : D.round (q * 10000) ≤ 10000 := by
    conv_rhs => rw [← htop]
    exact D.round_mono (by linarith)
  rw [round4]
  have hfloor : 0 ≤ ⌊D.round (q * 10000) + 1 / 2⌋ := Int.floor_nonneg.mpr (by linarith)
  have hfloor' : ⌊D.round (q * 10000) + 1 / 2⌋ ≤ 10000 := by
    have hlt : ⌊D.round (q * 10000) + 1 / 2⌋ < 10001 := by
      rw [Int.floor_lt]
      push_cast
      linarith
    omega
  generalize ⌊D.round (q * 10000) + 1 / 2⌋ = z at hfloor hfloor'
  have hz : (0 : ℚ) ≤ z := by exact_mod_cast hfloor
  have hz' : (z : ℚ) ≤ 10000 := by exact_mod_cast hfloor'
  exact D.round_unit ⟨by positivity, by rw [div_le_one (by norm_num)]; exact hz'⟩

/-- A rate that is null on a condition, and a rounded quotient otherwise. -/
theorem shownRate {isNull : Prop} {part whole : ℕ} {shown : Option ℚ} (hpart : part ≤ whole)
    (hnone : isNull → shown = none)
    (hsome : ¬isNull → shown = some (round4 D.round (D.round (part / whole)))) :
    ShownRate D isNull part whole shown := by
  refine ⟨hpart, ⟨fun h => ?_, hnone⟩, hsome, share_unit hpart, fun q hq => ?_⟩
  · by_contra hnot
    rw [hsome hnot] at h
    cases h
  · by_cases hnull : isNull
    · rw [hnone hnull] at hq
      cases hq
    · rw [hsome hnull] at hq
      obtain rfl := Option.some.inj hq
      exact round4_unit (D.round_unit (share_unit hpart))

theorem shownRate_rate {part whole : ℕ} (hpart : part ≤ whole) :
    ShownRate D (whole = 0) part whole (rate D.round part whole) :=
  shownRate hpart (fun h => if_pos h) fun h => if_neg h

end Rates

/-! ### Retention -/

/-- The row of a cohort day, at the time `now`. -/
structure RetentionRowOf (D : Doubles) (db : Tables) (now d : ℤ) (r : RetentionRow) : Prop where
  cohortDate : r.cohortDate = toDateString d
  newUsers : {u | NewOn db d u}.encard = r.newUsers
  rates : ∀ x ∈ [((1 : ℤ), r.d1), (7, r.d7), (30, r.d30)], ∃ returned : ℕ,
    {u | NewOn db d u ∧ LoggedIn db (d + x.1) u}.encard = returned ∧
      ShownRate D (r.newUsers = 0 ∨ ¬d + x.1 < utcDay now) returned r.newUsers x.2

/-- What the retention response says about a range. -/
structure RetentionOf (D : Doubles) (db : Tables) (now start stop : ℤ)
    (rows : List RetentionRow) : Prop where
  each : List.Forall₂ (RetentionRowOf D db now) (generateSeries start stop) rows
  total : {u | ∃ d, (start ≤ d ∧ d ≤ stop) ∧ NewOn db d u}.encard
    = ((rows.map RetentionRow.newUsers).sum : ℕ)
  cohort : ∀ u, (loginTimes db u).Nonempty → ∃! d, NewOn db d u

section Retention

variable {D : Doubles} {now : ℤ}

theorem retentionRowOf (hd : 0 ≤ d ∧ d ≤ MAX_DAY) :
    RetentionRowOf D db now d (retentionRow D.round db now d) := by
  have hcohort : toEpochDay (toDateString d) = d := by
    obtain ⟨n, rfl⟩ := Int.eq_ofNat_of_zero_le hd.1
    exact (parseDate?_eq_some (parseDate?_dateString (by exact_mod_cast hd.2))).2.2
  have hnew : {u | NewOn db d u}.encard = (newUsers db d).card :=
    encard_eq_card _ fun u => mem_newUsers_iff
  have hreturned : ∀ n, {u | NewOn db d u ∧ LoggedIn db (d + n) u}.encard
      = (returnedUsers db n d).card := by
    intro n
    refine encard_eq_card _ fun u => ?_
    rw [returnedUsers, Finset.mem_filter, mem_newUsers_iff, mem_activeUsers_iff]
  have hle : ∀ n, (returnedUsers db n d).card ≤ (newUsers db d).card := fun n =>
    Finset.card_le_card (Finset.filter_subset _ _)
  have hrate : ∀ n, ShownRate D ((newUsers db d).card = 0 ∨ ¬d + n < utcDay now)
      (returnedUsers db n d).card (newUsers db d).card
      (if ¬utcDay now > toEpochDay (toDateString d) + n ∨ (newUsers db d).card = 0 then none
        else some (round4 D.round
          (D.round ((returnedUsers db n d).card / (newUsers db d).card)))) := by
    intro n
    rw [hcohort]
    exact shownRate (hle n) (fun h => if_pos h.symm) fun h => if_neg fun h' => h h'.symm
  refine ⟨rfl, hnew, fun x hx => ?_⟩
  simp only [List.mem_cons, List.not_mem_nil, or_false] at hx
  rcases hx with rfl | rfl | rfl
  · exact ⟨_, hreturned 1, hrate 1⟩
  · exact ⟨_, hreturned 7, hrate 7⟩
  · exact ⟨_, hreturned 30, hrate 30⟩

/-- The cohorts of different days have no user in common. -/
theorem card_cohorts : {u | ∃ d, (start ≤ d ∧ d ≤ stop) ∧ NewOn db d u}.encard
    = (((generateSeries start stop).map fun d => (newUsers db d).card).sum : ℕ) := by
  have hdisjoint : (((generateSeries start stop).toFinset : Finset ℤ) : Set ℤ).PairwiseDisjoint
      (newUsers db) := by
    intro d _ d' _ hne
    refine Finset.disjoint_left.mpr fun u hu hu' => hne ?_
    obtain ⟨t, ht, rfl⟩ := mem_newUsers_iff.mp hu
    obtain ⟨t', ht', rfl⟩ := mem_newUsers_iff.mp hu'
    rw [ht.unique ht']
  rw [encard_eq_card ((generateSeries start stop).toFinset.biUnion (newUsers db)),
    Finset.card_biUnion hdisjoint, List.sum_toFinset _ nodup_generateSeries]
  intro u
  simp only [Finset.mem_biUnion, List.mem_toFinset, mem_generateSeries, mem_newUsers_iff]

/-- **The retention query equals its definition.** -/
theorem retention_defined (D : Doubles) (db : Tables) (now : ℤ) :
    OverRange (getRetention db D.round now) fun start stop _ rows =>
      RetentionOf D db now start stop rows := by
  refine overRange_of_windows windows_getRetention fun query startDay endDay response hvalid _ => ?_
  obtain ⟨-, hend, -⟩ := parseDate?_eq_some hvalid.stop
  rw [flatMap_single]
  refine ⟨?_, ?_, fun u hu => existsUnique_newOn hu⟩
  · rw [List.forall₂_map_right_iff, List.forall₂_same]
    intro d hd
    obtain ⟨hlow, hhigh⟩ := mem_generateSeries.mp hd
    exact retentionRowOf (by omega)
  · rw [card_cohorts, List.map_map]
    rfl

end Retention

/-! ### Conversion and engagement -/

variable (db start stop) in
/-- The users who log in, and those who pay, on some day of a range. -/
def activeInRange : Finset ℤ := (generateSeries start stop).toFinset.biUnion (activeUsers db)

variable (db start stop) in
def payingInRange : Finset ℤ := (generateSeries start stop).toFinset.biUnion (payingUsers db)

theorem mem_activeInRange : u ∈ activeInRange db start stop ↔
    ∃ d, (start ≤ d ∧ d ≤ stop) ∧ LoggedIn db d u := by
  simp only [activeInRange, Finset.mem_biUnion, List.mem_toFinset, mem_generateSeries,
    mem_activeUsers_iff]

theorem mem_payingInRange : u ∈ payingInRange db start stop ↔
    ∃ d, (start ≤ d ∧ d ≤ stop) ∧ Purchased db d u := by
  simp only [payingInRange, Finset.mem_biUnion, List.mem_toFinset, mem_generateSeries,
    mem_payingUsers_iff]

/-- A login in the range, whichever day it is of. -/
theorem mem_loginsInRange : (∃ g ∈ loginsInRange db start stop, g.userId = u) ↔
    u ∈ activeInRange db start stop := by
  rw [mem_activeInRange]
  simp only [loginsInRange, List.mem_filter, inRange_iff, mem_logins, LoggedIn, Did]
  constructor
  · rintro ⟨g, ⟨⟨hg, hlogin⟩, hrange⟩, rfl⟩
    exact ⟨_, hrange, g, hg, ⟨hlogin, rfl⟩, rfl⟩
  · rintro ⟨_, hrange, g, hg, ⟨hlogin, rfl⟩, rfl⟩
    exact ⟨g, ⟨⟨hg, hlogin⟩, hrange⟩, rfl⟩

theorem mem_purchasesInRange : (∃ p ∈ purchasesInRange db start stop, p.userId = u) ↔
    u ∈ payingInRange db start stop := by
  rw [mem_payingInRange]
  simp only [purchasesInRange, List.mem_filter, inRange_iff, Purchased]
  constructor
  · rintro ⟨p, ⟨hp, hrange⟩, rfl⟩
    exact ⟨_, hrange, p, hp, rfl, rfl⟩
  · rintro ⟨_, hrange, p, hp, rfl, rfl⟩
    exact ⟨p, ⟨hp, hrange⟩, rfl⟩

theorem uniqueLoginUsers_eq :
    uniqueLoginUsers db start stop = (activeInRange db start stop).card := by
  rw [uniqueLoginUsers, countDistinct_eq_card]
  congr 1
  ext u
  rw [List.mem_toFinset, List.mem_map, mem_loginsInRange]

/-- The totals count users of the whole range, with `EXISTS` for the intersection. -/
theorem conversionTotals_eq : conversionTotals db start stop =
    ⟨(payingInRange db start stop ∩ activeInRange db start stop).card,
      (activeInRange db start stop).card⟩ := by
  rw [conversionTotals, ConversionTotals.mk.injEq]
  refine ⟨?_, uniqueLoginUsers_eq⟩
  rw [countDistinct_eq_card]
  congr 1
  ext u
  rw [Finset.mem_inter, List.mem_toFinset, List.mem_map, ← mem_purchasesInRange,
    ← mem_loginsInRange]
  simp only [List.mem_filter, List.any_eq_true, decide_eq_true_iff]
  constructor
  · rintro ⟨p, ⟨hp, hlogin⟩, rfl⟩
    exact ⟨⟨p, hp, rfl⟩, hlogin⟩
  · rintro ⟨⟨p, hp, rfl⟩, hlogin⟩
    exact ⟨p, ⟨hp, hlogin⟩, rfl⟩

/-- The conversion row of a day. -/
structure ConversionRowOf (D : Doubles) (db : Tables) (d : ℤ) (r : ConversionRow) : Prop where
  date : r.date = toDateString d
  activeUsers : {u | LoggedIn db d u}.encard = r.activeUsers
  payingUsers : {u | Purchased db d u ∧ LoggedIn db d u}.encard = r.payingUsers
  rate : ShownRate D (r.activeUsers = 0) r.payingUsers r.activeUsers r.conversionRate

/-- The same over the whole range. -/
structure ConversionSummaryOf (D : Doubles) (db : Tables) (start stop : ℤ)
    (s : ConversionSummary) : Prop where
  activeUsers : {u | ∃ d, (start ≤ d ∧ d ≤ stop) ∧ LoggedIn db d u}.encard = s.activeUsers
  payingUsers : {u | (∃ d, (start ≤ d ∧ d ≤ stop) ∧ Purchased db d u) ∧
    ∃ d, (start ≤ d ∧ d ≤ stop) ∧ LoggedIn db d u}.encard = s.payingUsers
  rate : ShownRate D (s.activeUsers = 0) s.payingUsers s.activeUsers s.conversionRate

/-- The engagement row of a day and a type. -/
structure EngagementRowOf (D : Doubles) (db : Tables) (k : ℤ × JsString) (r : EngagementRow) :
    Prop where
  date : r.date = toDateString k.1
  eventType : r.eventType = k.2
  dau : {u | LoggedIn db k.1 u}.encard = r.dau
  engagedUsers : {u | LoggedIn db k.1 u ∧ Did db k.2 k.1 u}.encard = r.engagedUsers
  rate : ShownRate D (r.dau = 0) r.engagedUsers r.dau r.engagementRate
  login : k.2 = EventType.sessionLogin.name → 0 < r.dau → r.engagementRate = some 1

section Ratios

variable {D : Doubles}

theorem rate_self {n : ℕ} (h : 0 < n) : rate D.round n n = some 1 := by
  have hone := D.round_int 1 (by norm_num)
  have htop := D.round_int 10000 (by norm_num)
  push_cast at hone htop
  have hcast : (n : ℚ) ≠ 0 := by exact_mod_cast h.ne'
  have hfloor : ⌊(10000 : ℚ) + 1 / 2⌋ = 10000 := by norm_num [Int.floor_eq_iff]
  rw [rate, if_neg h.ne', div_self hcast, hone, round4, one_mul, htop, hfloor]
  norm_num [hone]

theorem conversionRowOf (d : ℤ) : ConversionRowOf D db d (conversionRow D.round db d) where
  date := rfl
  activeUsers := encard_eq_card _ fun u => mem_activeUsers_iff
  payingUsers := by
    refine encard_eq_card (activeUsers db d ∩ Metrics.payingUsers db d) fun u => ?_
    rw [Finset.mem_inter, mem_payingUsers_iff, mem_activeUsers_iff, and_comm]
  rate := by
    have hle : (activeUsers db d ∩ Metrics.payingUsers db d).card ≤ (activeUsers db d).card :=
      Finset.card_le_card Finset.inter_subset_left
    exact shownRate_rate hle

theorem conversionSummaryOf {query : MetricsQuery} {startDay endDay : ℕ}
    {response : Response ConversionSummary ConversionRow}
    (hvalid : ValidRange query startDay endDay)
    (h : getPurchaseConversion db D.round query = .ok response) :
    ConversionSummaryOf D db startDay endDay response.summary := by
  obtain ⟨hstart, hstop⟩ := toEpochDay_of_valid hvalid
  have hsummary : response.summary =
      ⟨(payingInRange db startDay endDay ∩ activeInRange db startDay endDay).card,
        (activeInRange db startDay endDay).card,
        rate D.round (payingInRange db startDay endDay ∩ activeInRange db startDay endDay).card
          (activeInRange db startDay endDay).card⟩ := by
    rw [getPurchaseConversion, parseRange_of_valid hvalid] at h
    obtain rfl := Except.ok.inj h
    simp only [hstart, hstop, conversionTotals_eq]
  rw [hsummary]
  refine ⟨encard_eq_card _ fun u => mem_activeInRange, encard_eq_card _ fun u => ?_,
    shownRate_rate (Finset.card_le_card Finset.inter_subset_right)⟩
  rw [Finset.mem_inter, mem_payingInRange, mem_activeInRange]

theorem engagementRowOf (d : ℤ) (eventType : JsString) :
    EngagementRowOf D db (d, eventType) (engagementRow D.round db eventType d) where
  date := rfl
  eventType := rfl
  dau := encard_eq_card _ fun u => mem_activeUsers_iff
  engagedUsers := by
    refine encard_eq_card (Metrics.engagedUsers db eventType d ∩ activeUsers db d)
      fun u => ?_
    rw [Finset.mem_inter, mem_engagedUsers_iff, mem_activeUsers_iff, and_comm]
  rate := by
    have hle : (Metrics.engagedUsers db eventType d ∩ activeUsers db d).card
        ≤ (activeUsers db d).card := Finset.card_le_card Finset.inter_subset_right
    exact shownRate_rate hle
  login := by
    rintro rfl hdau
    have hengaged : Metrics.engagedUsers db EventType.sessionLogin.name d = activeUsers db d := by
      ext u
      rw [mem_engagedUsers_iff, mem_activeUsers_iff]
    have hall : (Metrics.engagedUsers db EventType.sessionLogin.name d ∩ activeUsers db d).card
        = (activeUsers db d).card := by rw [hengaged, Finset.inter_self]
    have hrate := rate_self (D := D) hdau
    rw [engagementRow, EngagementDay.toRow] at hrate ⊢
    rw [hall]
    exact hrate

end Ratios

/-- **The ratio metrics are shares of sets**, day by day and over the range. -/
theorem ratio_metrics (D : Doubles) (collation : Collation) (db : Tables) :
    (OverRange (getPurchaseConversion db D.round) fun start stop summary rows =>
      ConversionSummaryOf D db start stop summary ∧
        List.Forall₂ (ConversionRowOf D db) (generateSeries start stop) rows) ∧
    ∀ eventType : Option EventType,
      OverRange (getEngagement db D.round collation (eventType.map EventType.name))
        fun start stop _ rows => List.Forall₂ (EngagementRowOf D db)
          (generateSeries start stop ×ˢ orderBy collation.le (requestedTypes eventType)) rows := by
  refine ⟨overRange_of_windows windows_getPurchaseConversion
    fun query startDay endDay response hvalid hresponse =>
      ⟨conversionSummaryOf hvalid hresponse, ?_⟩,
    fun eventType => overRange_of_windows (windows_getEngagement eventType)
      fun query startDay endDay response _ _ => ?_⟩
  · rw [flatMap_single, List.forall₂_map_right_iff, List.forall₂_same]
    exact fun d _ => conversionRowOf d
  · rw [← map_product (f := fun k => engagementRow D.round db k.2 k.1),
      List.forall₂_map_right_iff, List.forall₂_same]
    exact fun k _ => engagementRowOf k.1 k.2

end Metrics
