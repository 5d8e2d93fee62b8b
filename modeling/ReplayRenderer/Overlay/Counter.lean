import ReplayRenderer.Lib.Blake3
import ReplayRenderer.Splice.Assembly

/-!
Guest time on the overlay, counted back from the end of a segment by the
header's clock rational. Both subtractions saturate and a zero denominator is
taken for one; the product ahead of the division is not checked, and it is
the only thing that can go wrong.
-/

namespace ReplayRenderer

open Lib Lib.Outcome

def vnsAt {ε : Type} (endVns endIcount frameIcount : UInt64) (clockNum clockDen : UInt32) :
    Outcome ε Nat := do
  let product ← u64Mul (endIcount.toNat - frameIcount.toNat) clockNum.toNat
  let back := product / max clockDen.toNat 1
  pure (endVns.toNat - back)

def DhilogHeader.vnsAt {ε : Type} (h : DhilogHeader) (icount : UInt64) : Outcome ε Nat :=
  ReplayRenderer.vnsAt h.endVns h.endIcount icount h.clockNum h.clockDen

/-- The formula over unbounded integers, clamped at zero. -/
def DhilogHeader.vnsExact (h : DhilogHeader) (icount : UInt64) : Int :=
  max 0 ((h.endVns.toNat : Int) - ((h.endIcount.toNat : Int) - icount.toNat) * h.clockNum.toNat /
    max h.clockDen.toNat 1)

def DhilogHeader.SpanFits (h : DhilogHeader) (icount : UInt64) : Prop :=
  (h.endIcount.toNat - icount.toNat) * h.clockNum.toNat < 2 ^ 64

instance (h : DhilogHeader) (icount : UInt64) : Decidable (h.SpanFits icount) :=
  inferInstanceAs (Decidable (_ < _))

section Clock

variable {ε : Type} {h : DhilogHeader} {icount icount' : UInt64}

theorem vnsAt_eq_ok {vns : Nat} :
    (h.vnsAt icount : Outcome ε Nat) = .ok vns ↔ h.SpanFits icount ∧
      vns = h.endVns.toNat -
        (h.endIcount.toNat - icount.toNat) * h.clockNum.toNat / max h.clockDen.toNat 1 := by
  constructor
  · intro hvns
    obtain ⟨product, hmul, hvns⟩ := bind_eq_ok.mp hvns
    obtain ⟨hlt, rfl⟩ := u64Mul_eq_ok.mp hmul
    exact ⟨hlt, (Outcome.ok.inj hvns).symm⟩
  · rintro ⟨hlt, rfl⟩
    exact bind_eq_ok.mpr ⟨_, u64Mul_of_lt hlt, rfl⟩

theorem vnsExact_of_ok {vns : Nat} (hle : icount ≤ h.endIcount)
    (hvns : (h.vnsAt icount : Outcome ε Nat) = .ok vns) : (vns : Int) = h.vnsExact icount := by
  obtain ⟨-, rfl⟩ := vnsAt_eq_ok.mp hvns
  have hspan : ((h.endIcount.toNat - icount.toNat : Nat) : Int) =
      (h.endIcount.toNat : Int) - icount.toNat := Nat.cast_sub (UInt64.le_iff_toNat_le.mp hle)
  rw [DhilogHeader.vnsExact, ← hspan, ← Int.natCast_mul, ← Int.natCast_ediv]
  omega

/-- A later frame has less to count back. -/
theorem DhilogHeader.SpanFits.of_le (hle : icount ≤ icount') (hfits : h.SpanFits icount) :
    h.SpanFits icount' := by
  have hspan : h.endIcount.toNat - icount'.toNat ≤ h.endIcount.toNat - icount.toNat :=
    Nat.sub_le_sub_left (UInt64.le_iff_toNat_le.mp hle) _
  exact lt_of_le_of_lt (Nat.mul_le_mul_right _ hspan) hfits

theorem vnsAt_mono {vns vns' : Nat} (hle : icount ≤ icount')
    (hvns : (h.vnsAt icount : Outcome ε Nat) = .ok vns)
    (hvns' : (h.vnsAt icount' : Outcome ε Nat) = .ok vns') : vns ≤ vns' := by
  obtain ⟨-, rfl⟩ := vnsAt_eq_ok.mp hvns
  obtain ⟨-, rfl⟩ := vnsAt_eq_ok.mp hvns'
  apply Nat.sub_le_sub_left
  apply Nat.div_le_div_right
  apply Nat.mul_le_mul_right
  exact Nat.sub_le_sub_left (UInt64.le_iff_toNat_le.mp hle) _

theorem vnsAt_end : (h.vnsAt h.endIcount : Outcome ε Nat) = .ok h.endVns.toNat := by
  rw [vnsAt_eq_ok, DhilogHeader.SpanFits, Nat.sub_self, Nat.zero_mul, Nat.zero_div, Nat.sub_zero]
  exact ⟨by decide, rfl⟩

end Clock

/-- Guest time at `icount` as it should be, among the records of a segment. -/
structure GuestTime (h : DhilogHeader) (items : List RecordItem) (icount : UInt64) (vns : Nat) :
    Prop where
  returned : (h.vnsAt icount : Outcome Empty Nat) = .ok vns
  exact_ : (vns : Int) = h.vnsExact icount
  le_end : vns ≤ h.endVns.toNat
  at_end : icount = h.endIcount → vns = h.endVns.toNat
  mono : ∀ {r : Record} {framing : RecordFraming}, .ok (r, framing) ∈ items → icount ≤ r.icount →
    ∃ vns', (h.vnsAt r.icount : Outcome Empty Nat) = .ok vns' ∧ vns ≤ vns'

/-- The guest time of a record of a valid segment is exact, clamped, and in the
order of the icounts, exactly when the product ahead of the division fits. -/
theorem guestTime_iff_spanFits {blake3 : Bytes → Bytes32} {segment : DhilogSegment}
    {items : List RecordItem} {r : Record} {framing : RecordFraming}
    (hvalid : validateStructure blake3 segment = .ok ())
    (hitems : (segment.records : Outcome DhilogError _) = .ok items)
    (hr : .ok (r, framing) ∈ items) :
    (∃ vns, GuestTime segment.header items r.icount vns) ↔ segment.header.SpanFits r.icount := by
  obtain ⟨rs, hs⟩ := (validateStructure_eq_ok blake3 segment).mp hvalid
  obtain ⟨q, hq, hframed⟩ := hs.mem_of_item blake3 hitems hr
  obtain rfl : r = q := congrArg Prod.fst (Except.ok.inj hframed)
  have hle : r.icount ≤ segment.header.endIcount := (hs.grammar.allowed r hq).icount_le
  constructor
  · rintro ⟨vns, hvns⟩
    exact (vnsAt_eq_ok.mp hvns.returned).1
  · intro hfits
    obtain ⟨vns, hvns⟩ : ∃ vns, (segment.header.vnsAt r.icount : Outcome Empty Nat) = .ok vns :=
      ⟨_, vnsAt_eq_ok.mpr ⟨hfits, rfl⟩⟩
    refine ⟨vns, hvns, vnsExact_of_ok hle hvns, ?_, ?_, ?_⟩
    · rw [(vnsAt_eq_ok.mp hvns).2]
      exact Nat.sub_le _ _
    · intro hend
      rw [hend] at hvns
      exact Outcome.ok.inj (hvns.symm.trans vnsAt_end)
    · intro r' framing' hr' hlater
      have hvns' := vnsAt_eq_ok (ε := Empty).mpr ⟨hfits.of_le hlater, rfl⟩
      exact ⟨_, hvns', vnsAt_mono hlater hvns hvns'⟩

def firstFrame : Record :=
  { kind := kindFrameMark
    rflags := rflagAux
    seq := 0
    icount := 0
    boundaryRip := 0
    payload := zeros 8 }

def lastRecord : Record := { bareEnd with seq := 1, icount := 0x10000000000 }

/-- A segment of `2 ^ 40` instructions on a clock of `clockNum` nanoseconds
each, with a frame at its start. -/
def clockedSegment (clockNum : UInt32) : DhilogSegment :=
  DhilogSegment.ofRecords Blake3.hash
    { bareHeader 0x0100 (Bytes32.fill 1) (Bytes32.fill 2) Bytes32.zero with
      clockNum
      endIcount := 0x10000000000
      endVns := 0x10000000000 }
    [firstFrame, lastRecord]

theorem validate_clockedSegment :
    validateStructure Blake3.hash (clockedSegment 1) = .ok () ∧
      validateStructure Blake3.hash (clockedSegment 0xFFFFFFFF) = .ok () := by
  decide +kernel

theorem records_clockedSegment {ε : Type} (clockNum : UInt32) :
    ((clockedSegment clockNum).records : Outcome ε _) =
      .ok ([firstFrame, lastRecord].map framed) :=
  DhilogSegment.records_ofRecords _ _ (by decide)

theorem guestTime_iff_spanFits_clocked :
    ((clockedSegment 1).records : Outcome DhilogError _) =
        .ok ([firstFrame, lastRecord].map framed) ∧
      ((∃ vns, GuestTime (clockedSegment 1).header ([firstFrame, lastRecord].map framed)
          firstFrame.icount vns) ↔
        (clockedSegment 1).header.SpanFits firstFrame.icount) :=
  ⟨records_clockedSegment 1, guestTime_iff_spanFits validate_clockedSegment.1
    (records_clockedSegment 1) (List.mem_cons_self ..)⟩

/-- The header says nothing that keeps the product in range: on a valid segment
with the largest clock numerator the time of its first frame overflows. -/
theorem vnsAt_overflows :
    validateStructure Blake3.hash (clockedSegment 0xFFFFFFFF) = .ok () ∧
      ((clockedSegment 0xFFFFFFFF).records : Outcome DhilogError _) =
        .ok ([firstFrame, lastRecord].map framed) ∧
      ((clockedSegment 0xFFFFFFFF).header.vnsAt firstFrame.icount : Outcome Empty Nat) =
        .panic :=
  ⟨validate_clockedSegment.2, records_clockedSegment _, by decide +kernel⟩

end ReplayRenderer
