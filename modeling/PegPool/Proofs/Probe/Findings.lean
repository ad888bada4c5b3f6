import PegPool.Probe.Series
import PegPool.Proofs.Events

/-!
# What a series of probes finds

Every case of a series is one that `Drawn` describes, whatever the draws are.  Apart from iterations
that were cut off, a series tells of nothing but what such a case does: each event of an examination
is a `Finding`, which holds what was calculated for it (`probe_finds`, `Series.run_keeps`).
-/

namespace PegPool.Probe

open Traced (Tells tells_pure tells_log outcome_of_attempt outcome_of_attempt_none outcome_eq_ok_value)

/-! ## What is drawn -/

theorem rateDenominator_lt : rateDenominator < 1 <<< 64 := by decide

structure AtMostOnePercent (r : Rate) : Prop where
  isDenominator : r.denominator.val = rateDenominator
  le : r.numerator.val ≤ 100

/-- The pools and burns that a series may draw.  The supply of a pool is its invariant. -/
structure Drawn (cap : Nat) (fees : Fees) (b : Burn) : Prop where
  basePos : 1 ≤ b.base
  baseLe : b.base ≤ maxReserve
  isQuote : ∃ factor divisor : Int, (1 ≤ factor ∧ factor ≤ 1000) ∧ (1 ≤ divisor ∧ divisor ≤ 1000) ∧
    b.quote = max 1 (min maxReserve ((b.base * factor).fdiv divisor))
  ampPos : 1 ≤ b.amp
  ampLe : b.amp ≤ 1000000
  isSupply : ∃ d : Nat, (Curve.invariant cap b.base b.quote b.amp).outcome = .ok d ∧ b.supply = d
  sharePos : 1 ≤ b.share
  trade : AtMostOnePercent fees.trade
  withdraw : AtMostOnePercent fees.withdraw

/-- Whatever the draws are, what is drawn has the property. -/
def Yields {α : Type} (P : α → Prop) (x : Draw α) : Prop :=
  ∀ s : Draws, P (x.run s).1

section Yields

variable {α β : Type} {P : α → Prop} {Q : β → Prop}

theorem yields_pure {a : α} (holds : P a) : Yields P (pure a) :=
  fun _ => holds

theorem yields_any (x : Draw α) : Yields (fun _ => True) x :=
  fun _ => trivial

theorem Yields.bind {x : Draw α} {f : α → Draw β} (first : Yields P x)
    (rest : ∀ a, P a → Yields Q (f a)) : Yields Q (x >>= f) :=
  fun s => rest _ (first s) _

end Yields

theorem between_yields {low high : Int} (le : low ≤ high) :
    Yields (fun z => low ≤ z ∧ z ≤ high) (between low high) := by
  refine (yields_any _).bind fun d _ => yields_pure ?_
  have nonneg := Int.fmod_nonneg_of_pos (a := (d : Int)) (show 0 < high - low + 1 by omega)
  have lt := Int.fmod_lt_of_pos (d : Int) (show 0 < high - low + 1 by omega)
  omega

theorem drawReserves_yields : Yields (fun (base, quote) => (1 ≤ base ∧ base ≤ maxReserve) ∧
    ∃ factor divisor : Int, (1 ≤ factor ∧ factor ≤ 1000) ∧ (1 ≤ divisor ∧ divisor ≤ 1000) ∧
      quote = max 1 (min maxReserve ((base * factor).fdiv divisor))) drawReserves := by
  refine (between_yields (by decide)).bind fun base inRange => ?_
  refine (between_yields (by decide)).bind fun factor isFactor => ?_
  refine (between_yields (by decide)).bind fun divisor isDivisor => ?_
  exact yields_pure ⟨inRange, factor, divisor, isFactor, isDivisor, rfl⟩

theorem drawAmp_yields : Yields (fun amp => 1 ≤ amp ∧ amp ≤ 1000000) drawAmp := by
  refine (yields_any _).bind fun k _ => yields_pure ?_
  change 1 ≤ max (1 : Int) (min 1000000 _) ∧ max (1 : Int) (min 1000000 _) ≤ 1000000
  omega

theorem drawShare_yields {supply : Int} (pos : 1 ≤ supply) :
    Yields (fun share => 1 ≤ share) (drawShare supply) := by
  refine (yields_any _).bind fun k _ => ?_
  split
  · exact yields_pure pos
  · split
    · exact (yields_any _).bind fun kept _ => yields_pure (by omega)
    · split
      · exact fun s => (between_yields (by decide) s).1
      · exact fun s => (between_yields pos s).1

theorem drawRate_yields {most : Nat} (le : most ≤ rateDenominator) :
    Yields (fun r => r.denominator.val = rateDenominator ∧ r.numerator.val ≤ most)
      (drawRate most le) := by
  exact (yields_any _).bind fun n _ => yields_pure ⟨rfl, n.property⟩

theorem drawFees_yields :
    Yields (fun fees => AtMostOnePercent fees.trade ∧ AtMostOnePercent fees.withdraw) drawFees := by
  refine (yields_any _).bind fun adminTrade _ => (yields_any _).bind fun adminWithdraw _ => ?_
  refine (drawRate_yields _).bind fun trade isTrade => ?_
  refine (drawRate_yields _).bind fun withdraw isWithdraw => ?_
  exact yields_pure ⟨⟨isTrade.1, isTrade.2⟩, ⟨isWithdraw.1, isWithdraw.2⟩⟩

/-! ## What an examination tells of -/

/-- Paying for a burn lowers the invariant per remaining share. -/
structure Diluted (cap : Nat) (fees : Fees) (b : Burn) (w : Exchange.Withdrawal) (before after : Nat) :
    Prop where
  paid : (Exchange.withdrawOne cap fees b.amp b.share b.supply b.base b.quote).outcome = .ok w
  leaves : w.dy < b.base
  remains : b.share < b.supply
  isBefore : (Curve.invariant cap b.base b.quote b.amp).outcome = .ok before
  isAfter : (Curve.invariant cap (b.base - w.dy : Int) b.quote b.amp).outcome = .ok after
  falls : after * b.supply < before * (b.supply - b.share)

/-- An event of the examination of a burn, with what it is about. -/
inductive Finding (cap : Nat) (fees : Fees) (b : Burn) : Event → Prop where
  | unsettled {e : Event} (unsettled : e.IsUnsettled) : Finding cap fees b e
  | failed {fault : Fault}
      (fails : (Exchange.withdrawOne cap fees b.amp b.share b.supply b.base b.quote).outcome =
        .error fault) : Finding cap fees b (.burnFailed b)
  | drained {w : Exchange.Withdrawal}
      (paid : (Exchange.withdrawOne cap fees b.amp b.share b.supply b.base b.quote).outcome = .ok w)
      (takesAll : b.base ≤ w.dy) : Finding cap fees b (.reserveDrained w.dy b)
  | diluted {w : Exchange.Withdrawal} {before after : Nat}
      (diluted : Diluted cap fees b w before after) :
      Finding cap fees b (.sharesDiluted before after w.dy b)
  | cheaper {w smaller : Exchange.Withdrawal} (many : 1 < b.share)
      (paid : (Exchange.withdrawOne cap fees b.amp b.share b.supply b.base b.quote).outcome = .ok w)
      (paidLess : (Exchange.withdrawOne cap fees b.amp (b.share - 1) b.supply b.base b.quote).outcome =
        .ok smaller) (falls : w.dy < smaller.dy) :
      Finding cap fees b (.payoutNotMonotone w.dy smaller.dy b)

variable {cap : Nat} {fees : Fees} {b : Burn}

theorem invariant_finds (x y amp : Operand) :
    Tells (Finding cap fees b) (Curve.invariant cap x y amp) :=
  (Curve.invariant_tells cap x y amp).imp fun _ => .unsettled

theorem withdrawal_finds (b' : Burn) : Tells (Finding cap fees b) (withdrawal cap fees b') :=
  ((Exchange.withdrawOne_tells cap fees b'.amp b'.share b'.supply b'.base b'.quote).imp
    fun _ => .unsettled).attempt

theorem checkDilution_finds {w : Exchange.Withdrawal}
    (paid : (Exchange.withdrawOne cap fees b.amp b.share b.supply b.base b.quote).outcome = .ok w)
    (leaves : w.dy < b.base) (remains : b.share < b.supply) :
    Tells (Finding cap fees b) (checkDilution cap b w.dy) := by
  refine (invariant_finds b.base b.quote b.amp).attempt.bind fun before isBefore => ?_
  refine (invariant_finds (b.base - w.dy : Int) b.quote b.amp).attempt.bind fun after isAfter => ?_
  split
  case h_1 d0 d1 =>
    split
    case isTrue falls =>
      refine (tells_log (.diluted ?_)).bind fun _ _ => tells_pure _
      exact ⟨paid, leaves, remains, outcome_of_attempt isBefore, outcome_of_attempt isAfter, falls⟩
    case isFalse => exact tells_pure _
  case h_2 => exact tells_pure _

theorem checkPayout_finds {w : Exchange.Withdrawal} (many : 1 < b.share)
    (paid : (Exchange.withdrawOne cap fees b.amp b.share b.supply b.base b.quote).outcome = .ok w) :
    Tells (Finding cap fees b) (checkPayout cap fees b w.dy) := by
  refine (withdrawal_finds _).bind fun smaller paidLess => ?_
  split
  case h_1 smaller =>
    split
    case isTrue falls =>
      exact (tells_log (.cheaper many paid (outcome_of_attempt paidLess) falls)).bind fun _ _ =>
        tells_pure _
    case isFalse => exact tells_pure _
  case h_2 => exact tells_pure _

theorem lastCheck_finds {w : Exchange.Withdrawal}
    (paid : (Exchange.withdrawOne cap fees b.amp b.share b.supply b.base b.quote).outcome = .ok w)
    (diluted : Bool) :
    Tells (Finding cap fees b) (do
      let cheaper ← if 1 < b.share then checkPayout cap fees b w.dy else pure false
      return ({ cases := 1, violations := diluted.toNat + cheaper.toNat } : Tally)) := by
  split
  case isTrue many => exact (checkPayout_finds many paid).bind fun _ _ => tells_pure _
  case isFalse => exact (tells_pure _).bind fun _ _ => tells_pure _

theorem examine_finds : Tells (Finding cap fees b) (examine cap fees b) := by
  refine (withdrawal_finds b).bind fun w paid => ?_
  cases w with
  | none =>
    obtain ⟨fault, fails⟩ := outcome_of_attempt_none paid
    exact (tells_log (.failed fails)).bind fun _ _ => tells_pure _
  | some w =>
    have paid := outcome_of_attempt paid
    dsimp only
    split
    case isTrue takesAll =>
      exact ((tells_log (.drained paid takesAll)).bind fun _ _ => tells_pure _).bind fun _ _ =>
        tells_pure _
    case isFalse leaves =>
      split
      case isTrue remains =>
        exact (checkDilution_finds paid (by omega) remains).bind fun _ _ => lastCheck_finds paid _
      case isFalse => exact (tells_pure _).bind fun _ _ => lastCheck_finds paid _

/-! ## What a series tells of -/

/-- An iteration was cut off, or the event is found for a burn that may be drawn. -/
def Found (cap : Nat) (e : Event) : Prop :=
  e.IsUnsettled ∨ ∃ (fees : Fees) (b : Burn), Drawn cap fees b ∧ Finding cap fees b e

theorem probe_finds (cap : Nat) : Yields (Tells (Found cap)) (probe cap) := by
  refine drawReserves_yields.bind fun (base, quote) ⟨⟨basePos, baseLe⟩, isQuote⟩ => ?_
  refine drawAmp_yields.bind fun amp ⟨ampPos, ampLe⟩ => ?_
  have measured : Tells (Found cap)
      ((Curve.invariant cap base quote amp).attempt : Traced Empty (Option Nat)) :=
    ((Curve.invariant_tells cap base quote amp).imp fun _ => .inl).attempt
  dsimp only
  split
  case h_1 n isSupply =>
    refine (drawShare_yields (by omega)).bind fun share sharePos => ?_
    refine drawFees_yields.bind fun fees ⟨trade, withdraw⟩ => yields_pure ?_
    have supplied := isSupply ▸ outcome_eq_ok_value _
    refine measured.bind fun _ _ => examine_finds.imp fun e found => .inr ⟨fees, _, ?_, found⟩
    exact ⟨basePos, baseLe, isQuote, ampPos, ampLe, ⟨n + 1, outcome_of_attempt supplied, rfl⟩, sharePos,
      trade, withdraw⟩
  case h_2 => exact yields_pure (measured.bind fun _ _ => tells_pure _)

theorem Series.run_keeps {P : Event → Prop} (probed : Yields (Tells P) (probe cap)) (n : Nat)
    (s : Series) (known : ∀ e ∈ s.events, P e) : ∀ e ∈ (Series.run cap n s).events, P e := by
  induction n generalizing s with
  | zero => exact known
  | succ n inductionHypothesis =>
    refine inductionHypothesis (s.step cap) fun e happened => ?_
    obtain latest | earlier := List.mem_append.mp happened
    · exact probed s.draws e (List.mem_reverse.mp latest)
    · exact known e earlier

theorem found_of_runSeries {iterations : Nat} {draws : Draws} {e : Event}
    (happened : e ∈ (runSeries cap iterations draws).events) : Found cap e :=
  Series.run_keeps (probe_finds cap) iterations { draws } (List.forall_mem_nil _) e
    (List.mem_reverse.mp happened)

end PegPool.Probe
