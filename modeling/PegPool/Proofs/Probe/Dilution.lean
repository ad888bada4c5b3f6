import PegPool.Proofs.Exchange.OneAsset
import PegPool.Proofs.Probe.Findings

/-!
# Probes that find diluted shares

A series tells of diluted shares only where the invariant per remaining share of a drawn pool falls
(`Diluted`).

In a pool whose tokens are the units of its invariant that does not happen if the fee of the
withdrawal is at least two units.  A single withheld unit is not enough: the calculated reserve may be
short of the exact one by more (`undiluted_iff_two_le`).
-/

namespace PegPool.Probe

/-! ## What a series tells of -/

/-- If the event is about diluted shares, then about those of a burn that may be drawn. -/
def Reported (cap : Nat) (e : Event) : Prop :=
  ∀ (d0 d1 dy : Int) (b : Burn), e = .sharesDiluted d0 d1 dy b →
    ∃ (fees : Fees) (w : Exchange.Withdrawal) (before after : Nat), Drawn cap fees b ∧
      Diluted cap fees b w before after ∧ d0 = before ∧ d1 = after ∧ dy = w.dy

theorem Found.reported {cap : Nat} {e : Event} (found : Found cap e) : Reported cap e := by
  rintro d0 d1 dy b rfl
  obtain unsettled | ⟨fees, b', drawn, finding⟩ := found
  · exact unsettled.elim
  · cases finding with
    | unsettled unsettled => exact unsettled.elim
    | diluted diluted => exact ⟨fees, _, _, _, drawn, diluted, rfl, rfl, rfl⟩

theorem run_reports (cap n : Nat) (s : Series) (reported : ∀ e ∈ s.events, Reported cap e) :
    ∀ e ∈ (Series.run cap n s).events, Reported cap e :=
  Series.run_keeps (fun draws => (probe_finds cap draws).imp fun _ => Found.reported) n s reported

variable {cap : Nat} {fees : Fees} {b : Burn}

/-! ## What a fee of two units is worth -/

theorem Drawn.not_diluted {w : Exchange.Withdrawal} {before after : Nat} (capPos : 1 ≤ cap)
    (drawn : Drawn cap fees b) (two : 2 ≤ w.fee) : ¬ Diluted cap fees b w before after := by
  rintro ⟨paid, -, remains, isBefore, isAfter, falls⟩
  obtain ⟨d, calculated, isSupply⟩ := drawn.isSupply
  obtain rfl : d = before := Except.ok.inj (calculated.symm.trans isBefore)
  rw [isSupply] at paid remains falls
  have kept := Exchange.withdrawOne_keeps_invariant capPos remains isBefore paid two isAfter
  have : d * (d - b.share) ≤ after * d := by
    rw [mul_comm (after : Int)]
    exact mul_le_mul_of_nonneg_left (by omega) (Int.natCast_nonneg d)
  omega

/-- The schedule of draws that are all zero. -/
def drawnFree : Fees :=
  let none : Rate := ⟨.zero, ⟨rateDenominator, rateDenominator_lt⟩⟩
  ⟨none, none, none, none⟩

def twoOfEleven : Burn := ⟨1, 2, 11, 2, 11⟩

theorem drawn_twoOfEleven : Drawn Curve.defaultCap drawnFree twoOfEleven where
  basePos := by decide
  baseLe := by decide
  isQuote := ⟨11, 2, by decide, by decide, by decide⟩
  ampPos := by decide
  ampLe := by decide
  isSupply := ⟨11, rfl, rfl⟩
  sharePos := by decide
  trade := ⟨rfl, by decide⟩
  withdraw := ⟨rfl, by decide⟩

/-- They pay one unit, and the invariant of what is left is 8 where 9 tokens remain. -/
theorem diluted_twoOfEleven : Diluted Curve.defaultCap drawnFree twoOfEleven ⟨1, 1⟩ 11 8 where
  paid := rfl
  leaves := by decide
  remains := by decide
  isBefore := rfl
  isAfter := rfl
  falls := by decide

/-- No withdrawal that may be drawn and keeps some units as its fee dilutes the remaining shares
exactly if those are at least two units.  What a series tells of diluted shares is therefore about
withdrawals whose whole fee is the unit that is withheld. -/
theorem undiluted_iff_two_le (units iterations : Nat) (draws : Draws) :
    ((∀ (fees : Fees) (b : Burn) (w : Exchange.Withdrawal) (before after : Nat),
      Drawn Curve.defaultCap fees b → units ≤ w.fee →
        ¬ Diluted Curve.defaultCap fees b w before after) ↔ 2 ≤ units) ∧
    ∀ (d0 d1 dy : Int) (b : Burn),
      Event.sharesDiluted d0 d1 dy b ∈ (runSeries Curve.defaultCap iterations draws).events →
        ∃ (fees : Fees) (w : Exchange.Withdrawal) (before after : Nat), Drawn Curve.defaultCap fees b ∧
          Diluted Curve.defaultCap fees b w before after ∧ d0 = before ∧ d1 = after ∧ dy = w.dy ∧
            w.fee = 1 := by
  refine ⟨⟨?_, ?_⟩, ?_⟩
  · intro never
    by_contra few
    exact never _ _ _ _ _ drawn_twoOfEleven (show units ≤ 1 by omega) diluted_twoOfEleven
  · intro two fees b w before after drawn kept
    exact drawn.not_diluted (by decide) (by omega)
  · intro d0 d1 dy b happened
    have reported := run_reports Curve.defaultCap iterations { draws } (List.forall_mem_nil _)
    obtain ⟨fees, w, before, after, drawn, diluted, isBefore, isAfter, isDy⟩ :=
      reported _ (List.mem_reverse.mp happened) d0 d1 dy b rfl
    refine ⟨fees, w, before, after, drawn, diluted, isBefore, isAfter, isDy, ?_⟩
    have atLeast := Exchange.one_le_fee_of_withdrawOne diluted.paid
    have atMost : ¬ 2 ≤ w.fee := fun two => drawn.not_diluted (by decide) two diluted
    omega

/-- A series of one probe that draws this burn finds it. -/
theorem series_finds_dilution :
    (runSeries Curve.defaultCap 1 (.ofList [1, 10, 1, 0, 308, 1, 0, 0, 0, 0])).events =
      [.sharesDiluted 11 8 1 twoOfEleven] ∧
    Drawn Curve.defaultCap drawnFree twoOfEleven ∧
      Diluted Curve.defaultCap drawnFree twoOfEleven ⟨1, 1⟩ 11 8 :=
  ⟨by decide +kernel, drawn_twoOfEleven, diluted_twoOfEleven⟩

end PegPool.Probe
