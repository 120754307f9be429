import IndexPlanner.Proofs.Binary64.Power
import IndexPlanner.Proofs.CostEstimate.SortRisk

/-!
# How many documents a scan reads

An estimate divides the number of documents by a power of the selectivity factor, in doubles,
and rounds the quotient up.

Where the power is a whole number that doubles have, this is as good as exact: the power is,
and rounding the quotient to a double first does not change how it is rounded up.

Nothing keeps the power in the range of doubles.  A configuration may have any finite factor
above one, and a query may have any number of equalities.  If the power is infinite, the
quotient is zero, and with it everything that is computed from it: a sort takes no bytes, and
is no risk.  Otherwise the quotient is positive, since a power that a double stands for is below
`2 ^ 1024`, and so a collection that is not empty is never read for nothing.

* `toNat_scanCost_eq` and `scanCost_exact`: where the arithmetic is exact.
* `scanCost_of_nonempty`: a scan of a collection that is not empty reads something iff the power
  is finite, which the factor and the number of equalities decide.
-/

namespace IndexPlanner

open Binary64

/-- The factor of a configuration that passes its check is the number of a double above one. -/
theorem PlannerConfig.exists_denotes {config : PlannerConfig} (h : config.validate = .ok ()) :
    ∃ q, 1 < q ∧ Denotes config.selectivityFactor q := by
  have hvalid := validate_eq_ok_iff.1 h
  simp only [isValid, Bool.and_eq_true, Bool.not_eq_true', decide_eq_false_iff_not] at hvalid
  exact denotes_one.exists_lt hvalid.1.1 hvalid.1.2

theorem PlannerConfig.denotes_default : Denotes PlannerConfig.default.selectivityFactor 10 where
  isNegative_eq := by decide +kernel
  exponentField_ne := by decide +kernel
  value_eq := by
    have hten : magnitude PlannerConfig.default.selectivityFactor = ⟨10 * 2 ^ 49, -49⟩ := by
      decide +kernel
    rw [hten, Magnitude.value]
    norm_num

namespace CostEstimate

variable {documents : UInt64} {selectivity : Float} {q : ℚ}

/-- What is left of a collection is the rounded quotient, rounded up. -/
theorem toNat_scanned (hdocuments : documents.toNat ≤ 2 ^ 53) (hq : 1 ≤ q)
    (h : Denotes selectivity q) : ∃ r, Nearest (documents.toNat / q) r ∧
      r ≤ documents.toNat ∧ (scanned documents selectivity).toNat = ⌈r⌉₊ := by
  have hcount := (rounds_toFloat documents).denotes_natCast hdocuments
  have hpos : 0 < q := one_pos.trans_le hq
  obtain ⟨r, hnear, hfinite, -⟩ := hcount.div h hpos
  have hle : r ≤ documents.toNat :=
    hnear.le_of_le (representable_natCast hdocuments) (div_le_self (Nat.cast_nonneg _) hq)
  have hceil : ⌈r⌉₊ ≤ documents.toNat := Nat.ceil_le.2 hle
  have hsmall : ⌈r⌉₊ ≤ UInt64.size - 1 := Nat.le_sub_one_of_lt (hceil.trans_lt documents.toNat_lt)
  refine ⟨r, hnear, hle, ?_⟩
  rw [scanned, atLeastOne, if_pos ((denotes_one.le_iff h).2 hq),
    (hfinite (hle.trans_lt hcount.lt)).toNat_ceil, min_eq_left hsmall]

/-- Nothing is left of a collection that is narrowed without limit. -/
theorem scanned_infinity (hdocuments : documents.toNat ≤ 2 ^ 53) :
    (scanned documents infinity).toNat = 0 := by
  have hcount := (rounds_toFloat documents).denotes_natCast hdocuments
  rw [scanned, atLeastOne, if_pos one_le_infinity, hcount.div_infinity.toNat_ceil, Nat.ceil_zero,
    Nat.zero_min]

/-! ## Where the arithmetic is exact -/

/-- The number of equalities of a query that a match uses. -/
def equalitiesUsed (shape : QueryShape) (m : IndexMatch) : ℕ :=
  min m.equalityConsumed shape.equality.size

variable {config : PlannerConfig} {f : ℕ} {shape : QueryShape} {m : IndexMatch}
  {stats : CorpusStats}

/-- The number of documents that are left is the exact quotient, rounded up. -/
theorem toNat_scanCost_eq (hf : 2 ≤ f) (hfactor : Denotes config.selectivityFactor f)
    (hdocuments : stats.documents.toNat ≤ 2 ^ 53) (hpower : f ^ equalitiesUsed shape m ≤ 2 ^ 53) :
    (of shape m stats config).scanCost.toNat =
      ⌈(stats.documents.toNat : ℚ) / f ^ equalitiesUsed shape m⌉₊ := by
  have hused : equalitiesUsed shape m ≤ 53 :=
    (Nat.pow_le_pow_iff_right one_lt_two).1 ((Nat.pow_le_pow_left hf _).trans hpower)
  have hnarrowing : narrowing shape m = equalitiesUsed shape m :=
    Nat.min_eq_left (hused.trans (by decide))
  have hpos : 0 < f ^ equalitiesUsed shape m := Nat.pow_pos (by omega)
  have hdenotes := denotes_power hfactor (by omega) hpower
  obtain ⟨r, hnear, -, hceil⟩ := toNat_scanned hdocuments (by exact_mod_cast hpos) hdenotes
  rw [scanCost_eq, selectivity_eq, hnarrowing, hceil,
    hnear.ceil_div hdocuments hpos hpower, Nat.cast_pow]

/-- **The scan cost is exact where the arithmetic is.**  Let the factor be a whole number from
two upwards, and let the number of documents and the power be at most `2 ^ 53`.  The scan reads
the quotient, rounded up; so it reads no more if the match uses more equalities, of whatever
query, and no less if there are more documents. -/
theorem scanCost_exact (hf : 2 ≤ f) (hfactor : Denotes config.selectivityFactor f)
    (shape : QueryShape) (m : IndexMatch) (stats : CorpusStats)
    (hdocuments : stats.documents.toNat ≤ 2 ^ 53) (hpower : f ^ equalitiesUsed shape m ≤ 2 ^ 53) :
    (of shape m stats config).scanCost.toNat =
      ⌈(stats.documents.toNat : ℚ) / f ^ equalitiesUsed shape m⌉₊ ∧
    (∀ shape' m', equalitiesUsed shape m ≤ equalitiesUsed shape' m' →
      f ^ equalitiesUsed shape' m' ≤ 2 ^ 53 →
      (of shape' m' stats config).scanCost ≤ (of shape m stats config).scanCost) ∧
    ∀ stats' : CorpusStats, stats.documents ≤ stats'.documents →
      stats'.documents.toNat ≤ 2 ^ 53 →
      (of shape m stats config).scanCost ≤ (of shape m stats' config).scanCost := by
  have hcost := toNat_scanCost_eq hf hfactor hdocuments hpower
  have hone : (1 : ℚ) ≤ f := by exact_mod_cast one_le_two.trans hf
  refine ⟨hcost, fun shape' m' hmore hpower' => ?_, fun stats' hmore hdocuments' => ?_⟩
  · rw [UInt64.le_iff_toNat_le, hcost, toNat_scanCost_eq hf hfactor hdocuments hpower']
    have hpow : (f : ℚ) ^ equalitiesUsed shape m ≤ f ^ equalitiesUsed shape' m' :=
      pow_le_pow_right₀ hone hmore
    exact Nat.ceil_mono (div_le_div_of_nonneg_left (by positivity) (by positivity) hpow)
  · rw [UInt64.le_iff_toNat_le, hcost, toNat_scanCost_eq hf hfactor hdocuments' hpower]
    have hcount : (stats.documents.toNat : ℚ) ≤ stats'.documents.toNat := by
      exact_mod_cast UInt64.le_iff_toNat_le.1 hmore
    exact Nat.ceil_mono (div_le_div_of_nonneg_right hcount (by positivity))

/-- A query for the orders of a day in a city, from the latest one on. -/
def inCityOnDay : QueryShape where
  equality := ⟨["city", "day"], by decide⟩
  sort := [⟨"number", .desc⟩]
  range := .empty
  nodup := by decide
  named := by decide

/-- Two equalities leave a hundredth of the orders.  The quotient is so near to a whole number
that there is no double between them, and it is still rounded up. -/
theorem scanCost_exact_inCityOnDay :
    equalitiesUsed inCityOnDay { equalityConsumed := 2 } = 2 ∧
    (of inCityOnDay { equalityConsumed := 2 } ⟨9007199254740901, 100⟩ .default).scanCost.toNat =
      90071992547410 := by
  have hused : equalitiesUsed inCityOnDay { equalityConsumed := 2 } = 2 := by decide
  have hfactor : Denotes PlannerConfig.default.selectivityFactor (10 : ℕ) := by
    exact_mod_cast PlannerConfig.denotes_default
  have hexact := (scanCost_exact (by decide) hfactor inCityOnDay { equalityConsumed := 2 }
    ⟨9007199254740901, 100⟩ (by decide) (by rw [hused]; norm_num)).1
  refine ⟨hused, hexact.trans ?_⟩
  have hcount : (⟨9007199254740901, 100⟩ : CorpusStats).documents.toNat = 9007199254740901 := rfl
  rw [hused, hcount, Nat.ceil_eq_iff (by norm_num)]
  norm_num

/-! ## Where the power may be out of range -/

/-- A scan of a collection that is not empty reads something, and no more than there is, iff the
power is finite; then it is the number of a double from one upwards. -/
theorem scanned_of_atLeast (hpos : 1 ≤ documents.toNat) (hdocuments : documents.toNat ≤ 2 ^ 53)
    (h : AtLeast 0 selectivity) : (scanned documents selectivity).toNat ≤ documents.toNat ∧
      (1 ≤ (scanned documents selectivity).toNat ↔ selectivity.isFinite = true) := by
  rcases h with rfl | ⟨q, hq, hdenotes⟩
  · rw [scanned_infinity hdocuments, isFinite_infinity]
    simp
  · rw [pow_zero] at hq
    obtain ⟨r, hnear, hle, hceil⟩ := toNat_scanned hdocuments hq hdenotes
    -- the quotient is at least `2 ^ (-1024)`, which doubles have
    have hsmall : (2 : ℚ) ^ (-1024 : ℤ) ≤ documents.toNat / q := by
      have hone : (1 : ℚ) ≤ documents.toNat := by exact_mod_cast hpos
      have hrange : (0 : ℚ) < 2 ^ 1024 := pow_pos two_pos _
      rw [le_div_iff₀ (one_pos.trans_le hq), zpow_neg, zpow_ofNat, inv_mul_le_iff₀ hrange]
      exact hdenotes.lt.le.trans (le_mul_of_one_le_right hrange.le hone)
    have hrpos : 0 < r :=
      (zpow_pos two_pos _).trans_le (hnear.ge_of_ge (representable_zpow (by norm_num)) hsmall)
    rw [hceil, hdenotes.isFinite]
    exact ⟨Nat.ceil_le.2 hle, iff_of_true (Nat.ceil_pos.2 hrpos) rfl⟩

/-- **A scan of a collection that is not empty reads something iff the power is finite**, and
never more than there is; the same holds for the bytes of a sort.  The power is finite if the
factor is at most `2 ^ c` and `c` times the number of equalities is at most 1023.  It is not if
the factor is at least `2 ^ c` and that product is at least 1024. -/
theorem scanCost_of_nonempty (hvalid : config.validate = .ok ()) (shape : QueryShape)
    (m : IndexMatch) (stats : CorpusStats) (hpos : 1 ≤ stats.documents.toNat)
    (hdocuments : stats.documents.toNat ≤ 2 ^ 53) :
    (of shape m stats config).scanCost.toNat ≤ stats.documents.toNat ∧
    (1 ≤ (of shape m stats config).scanCost.toNat ↔
      (of shape m stats config).selectivity.isFinite = true) ∧
    (m.inMemorySort = true → 0 < stats.documentBytes →
      (0 < (of shape m stats config).sortBytes ↔
        (of shape m stats config).selectivity.isFinite = true)) ∧
    ∃ q, 1 < q ∧ Denotes config.selectivityFactor q ∧ ∀ c : ℕ,
      (q ≤ 2 ^ c → c * narrowing shape m ≤ 1023 →
        (of shape m stats config).selectivity.isFinite = true) ∧
      (2 ^ c ≤ q → 1024 ≤ c * narrowing shape m →
        (of shape m stats config).selectivity.isFinite = false) := by
  obtain ⟨q, hq, hfactor⟩ := PlannerConfig.exists_denotes hvalid
  have hfrom (c : ℕ) (hc : 2 ^ c ≤ q) :
      AtLeast (c * narrowing shape m) (of shape m stats config).selectivity :=
    AtLeast.power (.inr ⟨q, hc, hfactor⟩) _
  have hone : AtLeast 0 (of shape m stats config).selectivity := by
    simpa using hfrom 0 (by simpa using hq.le)
  obtain ⟨hle, hiff⟩ := scanned_of_atLeast hpos hdocuments hone
  rw [← scanCost_eq] at hle hiff
  refine ⟨hle, hiff, fun hsort hbytes => ?_, q, hq, hfactor, fun c => ⟨fun hc hk => ?_,
    fun hc hk => ?_⟩⟩
  · have hbytes' : 0 < stats.documentBytes.toNat := UInt64.lt_iff_toNat_lt.1 hbytes
    rw [← hiff, UInt64.lt_iff_toNat_lt, toNat_sortBytes, if_pos hsort, UInt64.toNat_zero,
      Nat.lt_min, and_iff_left (by decide), exactBytes, Nat.mul_pos_iff_of_pos_right hbytes',
      Nat.succ_le_iff]
  · obtain ⟨p, -, -, hp⟩ := AtMost.power (a := config.selectivityFactor) ⟨q, hq.le, hc, hfactor⟩ hk
    exact hp.isFinite
  · rcases hfrom c hc with hinf | ⟨p, hp, hdenotes⟩
    · rw [hinf, isFinite_infinity]
    · have hout : (2 : ℚ) ^ 1024 ≤ p := (pow_le_pow_right₀ one_le_two hk).trans hp
      exact absurd hdenotes.lt (not_lt.2 hout)

/-- A scan of one order reads it, however many equalities of its query have narrowed it. -/
theorem scanCost_of_nonempty_oneOrder :
    PlannerConfig.default.validate = .ok () ∧
    1 ≤ (of inCityOnDay { equalityConsumed := 2 } ⟨1, 100⟩ .default).scanCost.toNat := by
  have hvalid : PlannerConfig.default.validate = .ok () :=
    PlannerConfig.validate_eq_ok_iff.2 (by decide +kernel)
  have hfinite : (of inCityOnDay { equalityConsumed := 2 } ⟨1, 100⟩ .default).selectivity.isFinite =
      true := by decide +kernel
  exact ⟨hvalid, (scanCost_of_nonempty hvalid inCityOnDay { equalityConsumed := 2 } ⟨1, 100⟩
    (by decide) (by decide)).2.1.2 hfinite⟩

/-- An index of orders by city and day. -/
def byCityAndDay : IndexDefinition where
  name := "byCityAndDay"
  keys := [⟨"city", .asc⟩, ⟨"day", .asc⟩]
  named := by decide
  nodup := by decide
  fieldsNamed := by decide

/-- A configuration of which the factor has no square among doubles. -/
def steep : PlannerConfig := ⟨1e200, 1⟩

/-- With this configuration a million orders are read and sorted for nothing. -/
theorem scanCost_eq_zero_steep :
    steep.validate = .ok () ∧
    (IndexMatch.of inCityOnDay byCityAndDay).inMemorySort = true ∧
    (of inCityOnDay (IndexMatch.of inCityOnDay byCityAndDay) ⟨1000000, 100⟩ steep).scanCost = 0 ∧
    (of inCityOnDay (IndexMatch.of inCityOnDay byCityAndDay) ⟨1000000, 100⟩ steep).sortBytes = 0 ∧
    (of inCityOnDay (IndexMatch.of inCityOnDay byCityAndDay) ⟨1000000, 100⟩ steep).sortRisk =
      false := by
  refine ⟨PlannerConfig.validate_eq_ok_iff.2 ?_, ?_⟩
  · decide +kernel
  · decide +kernel

end CostEstimate
end IndexPlanner
