import TradeSurveillance.Fix.MessageTranslator
import TradeSurveillance.Ingestion.EventCodec
import TradeSurveillance.Lemmas.DoubleArithmetic

/-!
# Orders and executions through FIX and back

Three things are lost. A New comes back without its `orig_order_id`. A quantity travels as a double, and comes back if it is one. And
near the least `int64_t`, the whole seconds that a timestamp is split into are no `int64_t` when they are nanoseconds again.
-/

namespace TradeSurveillance

open Double RoundedDouble

/-! ## Arithmetic that is defined -/

/-- `from_transact_time` computes within `int64_t`. -/
structure UtcTimeStamp.Defined (field : UtcTimeStamp) : Prop where
  seconds : IsInt64 (field.timeT * 1000000000)
  sum : IsInt64 (fromTransactTime field)

/-- The split of a timestamp can be undone unless the whole seconds reach below the least `int64_t`. -/
theorem toTransactTime_defined_iff {ts : ℤ} (h : IsInt64 ts) : (toTransactTime ts).Defined ↔ -9223372036000000000 ≤ ts := by
  have hseconds : (toTransactTime ts).timeT = ts / 1000000000 := by
    have hdiv := Int.tmod_add_tdiv_mul ts 1000000000
    unfold toTransactTime
    simp only
    split_ifs with hneg
    · have hlow := Int.lt_tmod_of_pos ts (b := 1000000000) (by norm_num)
      simp only
      omega
    · have hhigh := Int.tmod_lt_of_pos ts (b := 1000000000) (by norm_num)
      simp only
      omega
  obtain ⟨hlow, hhigh⟩ := h
  constructor
  · intro hdefined
    have hle := hdefined.seconds.1
    rw [hseconds] at hle
    omega
  · intro hle
    refine ⟨?_, ?_⟩
    · rw [hseconds]
      constructor <;> omega
    · rw [fromTransactTime_toTransactTime]
      exact ⟨hlow, hhigh⟩

variable {P : Type} [Double P] [LinearOrder P] [DoubleRounding P] [RoundedDouble P]

/-- `std::llround` is defined: the double is within `int64_t`. -/
structure LlroundDefined (x : P) : Prop where
  finite : isFinite x = true
  mem : value x ∈ Set.Ico (-2 ^ 63) (2 ^ 63)

/-! ## Quantities -/

/-- The conversions between `int64_t` and `double`: `std::llround` rounds where it is defined, and an integer that is no double is
converted to a double that is an integer. -/
structure ExactConversions (P : Type) [Double P] [LinearOrder P] [DoubleRounding P] [RoundedDouble P] : Prop where
  llround : ∀ x : P, LlroundDefined x → DoubleRounding.llround x = DoubleRounding.llround (value x)
  intCast : ∀ n : ℤ, (n : ℚ) ∉ numbers P → ∃ m : ℤ, value (n : P) = m

/-- A quantity comes back exactly if it is a double. -/
theorem llround_qty_iff (hP : ExactConversions P) {n : ℤ} (hn : IsInt64 n) :
    LlroundDefined (n : P) ∧ DoubleRounding.llround (n : P) = n ↔ (n : ℚ) ∈ numbers P := by
  have hbound : |(n : ℚ)| ≤ 2 ^ 1023 := by
    have hpow : |(n : ℚ)| ≤ 2 ^ 63 := by
      rw [← Int.cast_abs]
      exact_mod_cast abs_le.2 ⟨hn.1, hn.2.le⟩
    exact hpow.trans (pow_le_pow_right₀ (by norm_num) (by norm_num))
  obtain ⟨hfinite, hvalue⟩ := RoundedDouble.intCast (P := P) n hbound
  constructor
  · rintro ⟨hdefined, hround⟩
    by_contra hmem
    obtain ⟨m, hm⟩ := hP.intCast n hmem
    rw [hP.llround _ hdefined, hm, llround_intCast] at hround
    have hnumber := (RoundedDouble.rounding (P := P)).mem n
    rw [← hvalue, hm, hround] at hnumber
    exact hmem hnumber
  · intro hmem
    rw [Rounding.round_of_mem _ hmem] at hvalue
    have hdefined : LlroundDefined (n : P) := by
      refine ⟨hfinite, ?_⟩
      rw [hvalue]
      exact ⟨by exact_mod_cast hn.1, by exact_mod_cast hn.2⟩
    exact ⟨hdefined, by rw [hP.llround _ hdefined, hvalue, llround_intCast]⟩

/-! ## Messages -/

/-- The way of an order there and back is defined, and gives the order. -/
structure OrderReturns (o : Order P) : Prop where
  qty : LlroundDefined (toNewOrderSingle o).orderQty
  transactTime : (toNewOrderSingle o).transactTime.Defined
  order : fromNewOrderSingle (toNewOrderSingle o) = .ok o

/-- The way of an execution. -/
structure ExecutionReturns (x : Execution P) : Prop where
  qty : LlroundDefined (toExecutionReport x).lastShares
  transactTime : (toExecutionReport x).transactTime.Defined
  execution : fromExecutionReport (toExecutionReport x) = .ok x

omit [Double P] [LinearOrder P] [RoundedDouble P] in
/-- What comes back of an order has its quantity and no `orig_order_id`. -/
theorem qty_of_fromNewOrderSingle {m : NewOrderSingle P} {o : Order P} (h : fromNewOrderSingle m = .ok o) :
    DoubleRounding.llround m.orderQty = o.qty ∧ o.origOrderId = [] := by
  unfold fromNewOrderSingle at h
  cases hside : sideFromFix m.side with
  | error e =>
    rw [hside] at h
    cases h
  | ok side =>
    cases htype : orderTypeFromFix m.ordType with
    | error e =>
      rw [hside, htype] at h
      cases h
    | ok type =>
      rw [hside, htype] at h
      cases h
      exact ⟨rfl, rfl⟩

omit [Double P] [LinearOrder P] [RoundedDouble P] in
theorem qty_of_fromExecutionReport {m : ExecutionReport P} {x : Execution P} (h : fromExecutionReport m = .ok x) :
    DoubleRounding.llround m.lastShares = x.qty := by
  unfold fromExecutionReport at h
  cases hside : sideFromFix m.side with
  | error e =>
    rw [hside] at h
    cases h
  | ok side =>
    rw [hside] at h
    cases h
    rfl

theorem orderReturns_iff (hP : ExactConversions P) {o : Order P} (hstatus : o.status = .new) (horig : o.origOrderId = o.orderId)
    (hqty : IsInt64 o.qty) (hts : IsInt64 o.timestampNs) :
    OrderReturns o ↔ o.orderId = [] ∧ (o.qty : ℚ) ∈ numbers P ∧ -9223372036000000000 ≤ o.timestampNs := by
  constructor
  · intro h
    obtain ⟨hround, hempty⟩ := qty_of_fromNewOrderSingle h.order
    exact ⟨horig.symm.trans hempty, (llround_qty_iff hP hqty).1 ⟨h.qty, hround⟩, (toTransactTime_defined_iff hts).1 h.transactTime⟩
  · rintro ⟨hid, hnumber, hle⟩
    obtain ⟨hdefined, hround⟩ := (llround_qty_iff hP hqty).2 hnumber
    refine ⟨hdefined, (toTransactTime_defined_iff hts).2 hle, ?_⟩
    rw [fromNewOrderSingle_to hstatus hround]
    have hempty : o.origOrderId = [] := horig.trans hid
    rw [← hempty]

theorem executionReturns_iff (hP : ExactConversions P) {x : Execution P} (hqty : IsInt64 x.qty) (hts : IsInt64 x.timestampNs) :
    ExecutionReturns x ↔ (x.qty : ℚ) ∈ numbers P ∧ -9223372036000000000 ≤ x.timestampNs := by
  constructor
  · intro h
    exact ⟨(llround_qty_iff hP hqty).1 ⟨h.qty, qty_of_fromExecutionReport h.execution⟩, (toTransactTime_defined_iff hts).1 h.transactTime⟩
  · rintro ⟨hnumber, hle⟩
    obtain ⟨hdefined, hround⟩ := (llround_qty_iff hP hqty).2 hnumber
    exact ⟨hdefined, (toTransactTime_defined_iff hts).2 hle, fromExecutionReport_to hround⟩

/-- What of a New and of an execution survives the way there and back. -/
theorem fix_round_trip_iff (hP : ExactConversions P) :
    (∀ o : Order P, o.status = .new → o.origOrderId = o.orderId → IsInt64 o.qty → IsInt64 o.timestampNs →
      (OrderReturns o ↔ o.orderId = [] ∧ (o.qty : ℚ) ∈ numbers P ∧ -9223372036000000000 ≤ o.timestampNs)) ∧
    ∀ x : Execution P, IsInt64 x.qty → IsInt64 x.timestampNs →
      (ExecutionReturns x ↔ (x.qty : ℚ) ∈ numbers P ∧ -9223372036000000000 ≤ x.timestampNs) :=
  ⟨fun _ hstatus horig hqty hts => orderReturns_iff hP hstatus horig hqty hts, fun _ hqty hts => executionReturns_iff hP hqty hts⟩

theorem exactConversions_rat : ExactConversions ℚ := ⟨fun _ _ => rfl, fun _ hn => absurd (Set.mem_univ _) hn⟩

/-- An execution of the last second before the epoch. -/
theorem fix_round_trip_before_epoch : ExecutionReturns (P := ℚ)
    ⟨ascii "T", ascii "A", ascii "ACC", ascii "X", .buy, 100, 5, -1, ascii "CPTY", ascii "SIM"⟩ :=
  ((fix_round_trip_iff exactConversions_rat).2 _ (by decide) (by decide)).2 ⟨Set.mem_univ _, by decide⟩

/-- A New loses its `orig_order_id`. -/
theorem orig_order_id_lost : ¬∀ o : Order ℚ, o.status = .new → o.origOrderId = o.orderId → IsInt64 o.qty → IsInt64 o.timestampNs →
    fromNewOrderSingle (toNewOrderSingle o) = .ok o := by
  intro h
  have hlost := h ⟨ascii "A", ascii "ACC", ascii "X", .buy, 100, 5, .limit, 0, .new, ascii "SIM", ascii "A"⟩ rfl rfl (by decide) (by decide)
  have hempty : ascii "A" = [] := (qty_of_fromNewOrderSingle hlost).2
  exact absurd hempty (by decide)

end TradeSurveillance
