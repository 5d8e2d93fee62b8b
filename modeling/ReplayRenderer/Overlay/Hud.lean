import Mathlib.Data.Prod.Lex
import ReplayRenderer.Lib.Sort
import ReplayRenderer.Splice.RoundTrip

/-!
The buttons held at a frame. The timeline of a path is the PAD_SET records of
its segments in the order they stand in, and the state at a frame is what the
last of them before the frame says. On segments the validator has accepted
the order of standing is the order by segment, icount and sequence number, so
the last is the greatest. A payload that is no pad ends the timeline with an
error, since the validator does not look into payloads.
-/

namespace ReplayRenderer

open Lib Lib.Outcome

structure HudEvent where
  segmentIndex : UInt32
  icount : UInt64
  seq : UInt32
  port : UInt8
  buttons : UInt32
  deriving DecidableEq, Repr

structure HudTimeline where
  events : List HudEvent
  deriving DecidableEq, Repr

def pushEvents (i : Nat) : List HudEvent → List RecordItem → Outcome DhilogError (List HudEvent)
  | events, [] => .ok events
  | _, .error e :: _ => .err e
  | events, .ok (rec, _) :: items =>
    if rec.isAux = false ∧ rec.kind = kindPadSet then do
      let p ← decodePadSet rec.payload
      pushEvents i (events ++
        [{ segmentIndex := UInt32.ofNat (i + 1)
           icount := rec.icount
           seq := rec.seq
           port := p.port
           buttons := p.buttons }]) items
    else
      pushEvents i events items

def pushSegments : Nat → List HudEvent → List DhilogSegment →
    Outcome DhilogError (List HudEvent)
  | _, events, [] => .ok events
  | i, events, seg :: segs => do
    let items ← seg.records
    let events ← pushEvents i events items
    pushSegments (i + 1) events segs

def HudTimeline.fromSegments (segments : List DhilogSegment) : Outcome DhilogError HudTimeline := do
  let events ← pushSegments 0 [] segments
  pure { events }

def HudTimeline.heldAt (timeline : HudTimeline) (segmentIndex : UInt32) (frameIcount : UInt64)
    (port : UInt8) : UInt32 :=
  timeline.events.foldl (fun held ev =>
    if ev.port ≠ port then
      held
    else if ev.segmentIndex < segmentIndex ∨
        (ev.segmentIndex = segmentIndex ∧ ev.icount ≤ frameIcount) then
      ev.buttons
    else
      held) 0

/-! ### The events of a path -/

abbrev Record.IsPadSet (r : Record) : Prop := r.isAux = false ∧ r.kind = kindPadSet

/-- A PAD_SET record that the decoder refuses. -/
def Record.IsBadPad (r : Record) : Prop := r.IsPadSet ∧ r.payload.length ≠ 12

instance (r : Record) : Decidable r.IsBadPad := inferInstanceAs (Decidable (_ ∧ _))

def Record.padError (r : Record) : DhilogError :=
  .framing ("PAD_SET payload is " ++ toString r.payload.length ++ " bytes, expected 12")

/-- A PAD_SET record of a path, decoded, with the number of its segment. -/
structure PadEvent where
  number : Nat
  record : Record
  pad : PadSet

def PadEvent.hud (e : PadEvent) : HudEvent where
  segmentIndex := UInt32.ofNat e.number
  icount := e.record.icount
  seq := e.record.seq
  port := e.pad.port
  buttons := e.pad.buttons

def PadEvent.key (e : PadEvent) : Nat ×ₗ (Nat ×ₗ Nat) :=
  toLex (e.number, toLex (e.record.icount.toNat, e.record.seq.toNat))

/-- What a record of segment `number` contributes. -/
def padEventOf (number : Nat) (r : Record) : Option PadEvent :=
  if r.IsPadSet then
    match decodePadSet r.payload with
    | .ok pad => some { number, record := r, pad }
    | _ => none
  else none

def padEvents (number : Nat) (rs : List Record) : List PadEvent :=
  rs.filterMap (padEventOf number)

def timelineEvents : Nat → List (List Record) → List PadEvent
  | _, [] => []
  | number, rs :: rss => padEvents number rs ++ timelineEvents (number + 1) rss

theorem padEventOf_eq_some {number : Nat} {r : Record} {e : PadEvent} :
    padEventOf number r = some e ↔
      r.IsPadSet ∧ e.number = number ∧ e.record = r ∧ decodePadSet r.payload = .ok e.pad := by
  obtain ⟨number', record, pad⟩ := e
  by_cases hpad : r.IsPadSet
  · cases hdecode : decodePadSet r.payload <;>
      simp [padEventOf, hdecode, @eq_comm _ number', @eq_comm _ record]
  · simp [padEventOf, hpad]

/-- The inner loop stops at the first pad it cannot decode. -/
theorem pushEvents_eq (i : Nat) (events : List HudEvent) (rs : List Record) :
    pushEvents i events (rs.map framed) =
      match rs.find? fun r => decide r.IsBadPad with
      | some r => .err r.padError
      | none => .ok (events ++ (padEvents (i + 1) rs).map PadEvent.hud) := by
  induction rs generalizing events with
  | nil => simp [pushEvents, padEvents]
  | cons r rs ih =>
      rw [List.map_cons, framed, pushEvents, List.find?_cons]
      by_cases hpad : r.IsPadSet
      · by_cases hlen : r.payload.length = 12
        · have hgood : ¬r.IsBadPad := fun h => h.2 hlen
          obtain ⟨pad, hdecode⟩ := exists_decodePadSet hlen
          have hevent : padEventOf (i + 1) r = some ⟨i + 1, r, pad⟩ :=
            padEventOf_eq_some.mpr ⟨hpad, rfl, rfl, hdecode⟩
          rw [if_pos hpad, hdecode, ok_bind, ih, decide_eq_false hgood, padEvents, padEvents,
            List.filterMap_cons_some hevent]
          simp [PadEvent.hud]
        · have hbad : r.IsBadPad := ⟨hpad, hlen⟩
          rw [if_pos hpad, decodePadSet, rejectIf_pos hlen, err_bind, err_bind,
            decide_eq_true hbad]
          rfl
      · have hgood : ¬r.IsBadPad := fun h => hpad h.1
        have hevent : padEventOf (i + 1) r = none := if_neg hpad
        rw [if_neg hpad, ih, decide_eq_false hgood, padEvents, padEvents,
          List.filterMap_cons_none hevent]

section Path

variable {blake3 : Bytes → Bytes32} {segments : List DhilogSegment} {rss : List (List Record)}

theorem pushSegments_eq (i : Nat) (events : List HudEvent)
    (hs : List.Forall₂ (SealedSegment blake3) segments rss) :
    pushSegments i events segments =
      match rss.flatten.find? fun r => decide r.IsBadPad with
      | some r => .err r.padError
      | none => .ok (events ++ (timelineEvents (i + 1) rss).map PadEvent.hud) := by
  induction hs generalizing i events with
  | nil => simp [pushSegments, timelineEvents]
  | @cons segment rs segments rss hseg _ ih =>
      rw [pushSegments, hseg.records_eq, ok_bind, pushEvents_eq, List.flatten_cons,
        List.find?_append]
      cases hbad : rs.find? fun r => decide r.IsBadPad with
      | some r => rfl
      | none =>
          rw [Option.none_or]
          simp only [ok_bind, ih, timelineEvents, List.map_append, List.append_assoc]

/-- The timeline of validated segments, or the first record that is no pad. -/
theorem fromSegments_eq (hs : List.Forall₂ (SealedSegment blake3) segments rss) :
    HudTimeline.fromSegments segments =
      match rss.flatten.find? fun r => decide r.IsBadPad with
      | some r => .err r.padError
      | none => .ok ⟨(timelineEvents 1 rss).map PadEvent.hud⟩ := by
  rw [HudTimeline.fromSegments, pushSegments_eq 0 [] hs]
  cases rss.flatten.find? fun r => decide r.IsBadPad <;> rfl

theorem timeline_eq (hs : List.Forall₂ (SealedSegment blake3) segments rss)
    {timeline : HudTimeline} (htimeline : HudTimeline.fromSegments segments = .ok timeline) :
    timeline = ⟨(timelineEvents 1 rss).map PadEvent.hud⟩ := by
  rw [fromSegments_eq hs] at htimeline
  split at htimeline
  · cases htimeline
  · exact (Outcome.ok.inj htimeline).symm

theorem exists_sealedSegments
    (hvalid : ∀ segment ∈ segments, validateStructure blake3 segment = .ok ()) :
    ∃ rss, List.Forall₂ (SealedSegment blake3) segments rss := by
  induction segments with
  | nil => exact ⟨[], .nil⟩
  | cons segment segments ih =>
      obtain ⟨hseg, hrest⟩ := List.forall_mem_cons.mp hvalid
      obtain ⟨rs, hrs⟩ := (validateStructure_eq_ok blake3 segment).mp hseg
      obtain ⟨rss, hrss⟩ := ih hrest
      exact ⟨rs :: rss, .cons hrs hrss⟩

def Record.OnPath (segments : List DhilogSegment) (r : Record) : Prop :=
  ∃ segment ∈ segments, ∃ items framing,
    (segment.records : Outcome DhilogError _) = .ok items ∧ .ok (r, framing) ∈ items

theorem Record.onPath_iff (hs : List.Forall₂ (SealedSegment blake3) segments rss) {r : Record} :
    r.OnPath segments ↔ r ∈ rss.flatten := by
  induction hs with
  | nil => simp [Record.OnPath]
  | @cons segment rs segments rss hseg _ ih =>
      rw [List.flatten_cons, List.mem_append, ← ih]
      constructor
      · rintro ⟨segment', hsegment', items, framing, hitems, hr⟩
        rcases List.mem_cons.mp hsegment' with rfl | hrest
        · obtain ⟨q, hq, hframed⟩ := hseg.mem_of_item blake3 hitems hr
          obtain rfl : r = q := congrArg Prod.fst (Except.ok.inj hframed)
          exact .inl hq
        · exact .inr ⟨segment', hrest, items, framing, hitems, hr⟩
      · rintro (hr | ⟨segment', hrest, hr⟩)
        · exact ⟨segment, List.mem_cons_self .., _, ⟨true⟩, hseg.records_eq,
            List.mem_map.mpr ⟨r, hr, rfl⟩⟩
        · exact ⟨segment', List.mem_cons_of_mem _ hrest, hr⟩

/-- On validated segments only a payload of the wrong length stands in the way
of a timeline, and it is what the error names. -/
theorem fromSegments_decides
    (hvalid : ∀ segment ∈ segments, validateStructure blake3 segment = .ok ()) :
    ((∃ timeline, HudTimeline.fromSegments segments = .ok timeline) ↔
        ∀ r, Record.OnPath segments r → r.IsPadSet → r.payload.length = 12) ∧
      (∀ e, HudTimeline.fromSegments segments = .err e →
        ∃ r, Record.OnPath segments r ∧ r.IsBadPad ∧ e = r.padError) ∧
      HudTimeline.fromSegments segments ≠ .panic := by
  obtain ⟨rss, hs⟩ := exists_sealedSegments hvalid
  simp only [fromSegments_eq hs, Record.onPath_iff hs]
  cases hbad : rss.flatten.find? fun r => decide r.IsBadPad with
  | none =>
      have hgood := List.find?_eq_none.mp hbad
      refine ⟨⟨fun _ r hr hpad => ?_, fun _ => ⟨_, rfl⟩⟩, by simp, by simp⟩
      by_contra hlen
      exact hgood r hr (decide_eq_true ⟨hpad, hlen⟩)
  | some r =>
      have hr := List.mem_of_find?_eq_some hbad
      have hrbad : r.IsBadPad := by simpa using List.find?_some hbad
      refine ⟨⟨by simp, fun hgood => absurd (hgood r hr hrbad.1) hrbad.2⟩, fun e he => ?_, by simp⟩
      exact ⟨r, hr, hrbad, (Outcome.err.inj he).symm⟩

def PadEvent.OnPath (segments : List DhilogSegment) (e : PadEvent) : Prop :=
  ∃ k segment items framing, e.number = k + 1 ∧ segments[k]? = some segment ∧
    (segment.records : Outcome DhilogError _) = .ok items ∧
    .ok (e.record, framing) ∈ items ∧ e.record.IsPadSet ∧
    decodePadSet e.record.payload = .ok e.pad

theorem mem_timelineEvents {number : Nat} {rss : List (List Record)} {e : PadEvent} :
    e ∈ timelineEvents number rss ↔ ∃ k rs, e.number = number + k ∧ rss[k]? = some rs ∧
      e.record ∈ rs ∧ e.record.IsPadSet ∧ decodePadSet e.record.payload = .ok e.pad := by
  induction rss generalizing number with
  | nil => simp [timelineEvents]
  | cons rs rss ih =>
      simp only [timelineEvents, List.mem_append, ih, padEvents, List.mem_filterMap,
        padEventOf_eq_some]
      constructor
      · rintro (⟨r, hr, hpad, hnumber, rfl, hdecode⟩ | ⟨k, rs', hnumber, hk, hmem⟩)
        · exact ⟨0, rs, hnumber, rfl, hr, hpad, hdecode⟩
        · exact ⟨k + 1, rs', by omega, hk, hmem⟩
      · rintro ⟨k, rs', hnumber, hk, hr, hpad, hdecode⟩
        cases k with
        | zero =>
            obtain rfl : rs = rs' := by simpa using hk
            exact .inl ⟨_, hr, hpad, hnumber, rfl, hdecode⟩
        | succ k => exact .inr ⟨k, rs', by omega, hk, hr, hpad, hdecode⟩

theorem onPath_iff (hs : List.Forall₂ (SealedSegment blake3) segments rss) {e : PadEvent} :
    e.OnPath segments ↔ e ∈ timelineEvents 1 rss := by
  rw [mem_timelineEvents, PadEvent.OnPath]
  obtain ⟨hlen, hsealed⟩ := List.forall₂_iff_get.mp hs
  constructor
  · rintro ⟨k, segment, items, framing, hnumber, hk, hitems, hr, hpad⟩
    obtain ⟨hlt, rfl⟩ := List.getElem?_eq_some_iff.mp hk
    obtain ⟨r, hmem, hframed⟩ := (hsealed k hlt (hlen ▸ hlt)).mem_of_item blake3 hitems hr
    obtain rfl : e.record = r := congrArg Prod.fst (Except.ok.inj hframed)
    exact ⟨k, _, by omega, List.getElem?_eq_getElem (hlen ▸ hlt), hmem, hpad⟩
  · rintro ⟨k, rs, hnumber, hk, hr, hpad⟩
    obtain ⟨hlt, rfl⟩ := List.getElem?_eq_some_iff.mp hk
    exact ⟨k, _, _, ⟨true⟩, by omega, List.getElem?_eq_getElem (hlen ▸ hlt),
      (hsealed k (hlen ▸ hlt) hlt).records_eq, List.mem_map.mpr ⟨e.record, hr, rfl⟩, hpad⟩

/-- Within a segment the validator has seen to the order. -/
theorem pairwise_padEvents {h : DhilogHeader} {rs : List Record} (hg : SealedGrammar h rs)
    (number : Nat) : (padEvents number rs).Pairwise fun e e' => e.key < e'.key := by
  have hseq : rs.Pairwise fun r r' => r.seq.toNat < r'.seq.toNat := by
    rw [List.pairwise_iff_getElem]
    intro i j hi hj hij
    rw [hg.seq i _ (List.getElem?_eq_getElem hi), hg.seq j _ (List.getElem?_eq_getElem hj)]
    exact hij
  refine List.Pairwise.filterMap _ ?_ (hg.monotone.and hseq)
  rintro r r' ⟨hicount, hseq⟩ e he e' he'
  obtain ⟨-, hnumber, rfl, -⟩ := padEventOf_eq_some.mp he
  obtain ⟨-, hnumber', rfl, -⟩ := padEventOf_eq_some.mp he'
  rw [PadEvent.key, PadEvent.key, hnumber, hnumber']
  refine Prod.Lex.toLex_lt_toLex.mpr (.inr ⟨rfl, Prod.Lex.toLex_lt_toLex.mpr ?_⟩)
  rcases (UInt64.le_iff_toNat_le.mp hicount).lt_or_eq with hlt | heq
  · exact .inl hlt
  · exact .inr ⟨heq, hseq⟩

/-- The events of a path stand in the order of their keys. -/
theorem pairwise_timelineEvents (hs : List.Forall₂ (SealedSegment blake3) segments rss)
    (number : Nat) : (timelineEvents number rss).Pairwise fun e e' => e.key < e'.key := by
  induction hs generalizing number with
  | nil => exact .nil
  | @cons segment rs segments rss hseg _ ih =>
      refine List.pairwise_append.mpr ⟨pairwise_padEvents hseg.grammar number, ih _, ?_⟩
      intro e he e' he'
      obtain ⟨r, -, hr⟩ := List.mem_filterMap.mp he
      obtain ⟨-, hnumber, -⟩ := padEventOf_eq_some.mp hr
      obtain ⟨k, -, hnumber', -⟩ := mem_timelineEvents.mp he'
      exact Prod.Lex.toLex_lt_toLex.mpr (.inl (by simp only; omega))

/-- Not after the frame, for segments numbered by `number`. -/
def PadEvent.Before (number : Nat → Nat) (segmentIndex : UInt32) (frameIcount : UInt64)
    (e : PadEvent) : Prop :=
  number e.number < segmentIndex.toNat ∨
    (number e.number = segmentIndex.toNat ∧ e.record.icount ≤ frameIcount)

instance (number : Nat → Nat) (segmentIndex : UInt32) (frameIcount : UInt64) (e : PadEvent) :
    Decidable (e.Before number segmentIndex frameIcount) :=
  inferInstanceAs (Decidable (_ ∨ _))

/-- What the greatest event of a port before the frame says, and nothing held
where there is none. -/
def Held (segments : List DhilogSegment) (before : PadEvent → Prop) (port : UInt8)
    (buttons : UInt32) : Prop :=
  (∃ e, e.OnPath segments ∧ e.pad.port = port ∧ before e ∧ buttons = e.pad.buttons ∧
      ∀ e', e'.OnPath segments → e'.pad.port = port → before e' → e'.key ≤ e.key) ∨
    (buttons = 0 ∧ ∀ e, e.OnPath segments → e.pad.port = port → ¬before e)

theorem Held.congr {before before' : PadEvent → Prop} {port : UInt8} {buttons : UInt32}
    (hheld : Held segments before port buttons)
    (hsame : ∀ e, e.OnPath segments → (before e ↔ before' e)) :
    Held segments before' port buttons := by
  rcases hheld with ⟨e, he, hport, hbefore, hbuttons, hgreatest⟩ | ⟨hzero, hnone⟩
  · refine .inl ⟨e, he, hport, (hsame e he).mp hbefore, hbuttons, fun e' he' hport' hbefore' => ?_⟩
    exact hgreatest e' he' hport' ((hsame e' he').mpr hbefore')
  · exact .inr ⟨hzero, fun e he hport hbefore => hnone e he hport ((hsame e he).mpr hbefore)⟩

theorem before_hud_iff {segmentIndex : UInt32} {frameIcount : UInt64} {e : PadEvent} :
    (e.hud.segmentIndex < segmentIndex ∨
        (e.hud.segmentIndex = segmentIndex ∧ e.hud.icount ≤ frameIcount)) ↔
      e.Before (· % 2 ^ 32) segmentIndex frameIcount := by
  have hindex : e.hud.segmentIndex.toNat = e.number % 2 ^ 32 := UInt32.toNat_ofNat'
  rw [PadEvent.Before, UInt32.lt_iff_toNat_lt, ← UInt32.toNat_inj, hindex]
  rfl

theorem heldAt_timelineEvents (events : List PadEvent) (segmentIndex : UInt32)
    (frameIcount : UInt64) (port : UInt8) :
    HudTimeline.heldAt ⟨events.map PadEvent.hud⟩ segmentIndex frameIcount port =
      ((events.filter fun e => decide
        (e.pad.port = port ∧ e.Before (· % 2 ^ 32) segmentIndex frameIcount)).getLast?.map
          fun e => e.pad.buttons).getD 0 := by
  rw [← foldl_overwrite, HudTimeline.heldAt, List.foldl_map]
  congr 1
  funext held e
  by_cases hport : e.pad.port = port
  · have hhud : ¬e.hud.port ≠ port := not_not.mpr hport
    rw [if_neg hhud, if_congr before_hud_iff rfl rfl]
    simp only [hport, true_and]
    rfl
  · have hhud : e.hud.port ≠ port := hport
    rw [if_pos hhud, if_neg (fun h => hport h.1)]

theorem held_heldAt (hs : List.Forall₂ (SealedSegment blake3) segments rss)
    (segmentIndex : UInt32) (frameIcount : UInt64) (port : UInt8) :
    Held segments (PadEvent.Before (· % 2 ^ 32) segmentIndex frameIcount) port
      (HudTimeline.heldAt ⟨(timelineEvents 1 rss).map PadEvent.hud⟩ segmentIndex frameIcount
        port) := by
  rw [heldAt_timelineEvents]
  have hmem : ∀ e, e ∈ (timelineEvents 1 rss).filter (fun e => decide
      (e.pad.port = port ∧ e.Before (· % 2 ^ 32) segmentIndex frameIcount)) ↔
      e.OnPath segments ∧ e.pad.port = port ∧
        e.Before (· % 2 ^ 32) segmentIndex frameIcount := by
    intro e
    rw [List.mem_filter, decide_eq_true_iff, onPath_iff hs]
  have hsorted := (pairwise_timelineEvents hs 1).filter fun e => decide
    (e.pad.port = port ∧ e.Before (· % 2 ^ 32) segmentIndex frameIcount)
  generalize (timelineEvents 1 rss).filter _ = events at hmem hsorted
  cases hlast : events.getLast? with
  | none =>
      refine .inr ⟨rfl, fun e he hport hbefore => ?_⟩
      have hin := (hmem e).mpr ⟨he, hport, hbefore⟩
      rw [List.getLast?_eq_none_iff.mp hlast] at hin
      exact List.not_mem_nil hin
  | some e =>
      obtain ⟨he, hport, hbefore⟩ := (hmem e).mp (List.mem_of_getLast? hlast)
      refine .inl ⟨e, he, hport, hbefore, rfl, fun e' he' hport' hbefore' => ?_⟩
      exact le_of_getLast? hsorted hlast ((hmem e').mpr ⟨he', hport', hbefore'⟩)

/-- Only the events of the port before the frame count. -/
theorem heldAt_congr {events : List PadEvent} {segmentIndex segmentIndex' : UInt32}
    {frameIcount frameIcount' : UInt64} {port : UInt8}
    (h : ∀ e ∈ events, e.pad.port = port →
      (e.Before (· % 2 ^ 32) segmentIndex frameIcount ↔
        e.Before (· % 2 ^ 32) segmentIndex' frameIcount')) :
    HudTimeline.heldAt ⟨events.map PadEvent.hud⟩ segmentIndex frameIcount port =
      HudTimeline.heldAt ⟨events.map PadEvent.hud⟩ segmentIndex' frameIcount' port := by
  rw [heldAt_timelineEvents, heldAt_timelineEvents]
  congr 3
  exact List.filter_congr fun e he => decide_eq_decide.mpr (and_congr_right (h e he))

theorem PadEvent.OnPath.number_le {e : PadEvent} (he : e.OnPath segments) :
    e.number ≤ segments.length := by
  obtain ⟨k, segment, items, framing, hnumber, hk, -⟩ := he
  have hlt := (List.getElem?_eq_some_iff.mp hk).1
  omega

theorem PadEvent.OnPath.icount_le {e : PadEvent} {k : Nat} {segment : DhilogSegment}
    (hs : List.Forall₂ (SealedSegment blake3) segments rss) (he : e.OnPath segments)
    (hk : segments[k]? = some segment) (hnumber : e.number = k + 1) :
    e.record.icount ≤ segment.header.endIcount := by
  obtain ⟨k', segment', items, framing, hnumber', hk', hitems, hr, -⟩ := he
  obtain rfl : k = k' := by omega
  obtain rfl : segment = segment' := Option.some.inj (hk.symm.trans hk')
  obtain ⟨hlt, rfl⟩ := List.getElem?_eq_some_iff.mp hk
  obtain ⟨hlen, hsealed⟩ := List.forall₂_iff_get.mp hs
  have hseg := hsealed k hlt (hlen ▸ hlt)
  obtain ⟨r, hmem, hframed⟩ := hseg.mem_of_item blake3 hitems hr
  obtain rfl : e.record = r := congrArg Prod.fst (Except.ok.inj hframed)
  exact (hseg.grammar.allowed _ hmem).icount_le

/-- A frame ahead of the events of a segment sees what the segment before it
left. -/
theorem heldAt_carried {k : Nat} {prev segment : DhilogSegment} {frameIcount : UInt64}
    {port : UInt8} (hs : List.Forall₂ (SealedSegment blake3) segments rss)
    (hlen : segments.length < 2 ^ 32) (hprev : segments[k]? = some prev)
    (hsegment : segments[k + 1]? = some segment)
    (hfirst : ∀ e, PadEvent.OnPath segments e → e.number = k + 2 → e.pad.port = port →
      frameIcount < e.record.icount) :
    HudTimeline.heldAt ⟨(timelineEvents 1 rss).map PadEvent.hud⟩ (UInt32.ofNat (k + 2)) frameIcount
        port =
      HudTimeline.heldAt ⟨(timelineEvents 1 rss).map PadEvent.hud⟩ (UInt32.ofNat (k + 1))
        prev.header.endIcount port := by
  have hlt := (List.getElem?_eq_some_iff.mp hsegment).1
  refine heldAt_congr fun e he hport => ?_
  have hpath := (onPath_iff hs).mpr he
  have hnumber := hpath.number_le
  rw [PadEvent.Before, PadEvent.Before, UInt32.toNat_ofNat_of_lt' (show k + 2 < 2 ^ 32 by omega),
    UInt32.toNat_ofNat_of_lt' (show k + 1 < 2 ^ 32 by omega), Nat.mod_eq_of_lt (by omega)]
  constructor
  · rintro (hbefore | ⟨hsame, hicount⟩)
    · rcases (Nat.lt_succ_iff.mp hbefore).lt_or_eq with hlt | heq
      · exact .inl hlt
      · exact .inr ⟨heq, hpath.icount_le hs hprev heq⟩
    · exact absurd (hfirst e hpath hsame hport) (UInt64.not_lt.mpr hicount)
  · rintro (hbefore | ⟨hsame, -⟩)
    · exact .inl (Nat.lt_succ_of_lt hbefore)
    · exact .inl (by omega)

end Path

/-- What a timeline is for: the fold of the events of a port at the icount of a
frame, seeded with what the segment before ended with. -/
structure FoldsAtFrame (segments : List DhilogSegment) (timeline : HudTimeline) (port : UInt8) :
    Prop where
  greatest : ∀ segmentIndex frameIcount,
    Held segments (PadEvent.Before id segmentIndex frameIcount) port
      (timeline.heldAt segmentIndex frameIcount port)
  carried : ∀ (k : Nat) (prev segment : DhilogSegment) (frameIcount : UInt64),
    segments[k]? = some prev → segments[k + 1]? = some segment →
    (∀ e, PadEvent.OnPath segments e → e.number = k + 2 → e.pad.port = port →
      frameIcount < e.record.icount) →
    timeline.heldAt (UInt32.ofNat (k + 2)) frameIcount port =
      timeline.heldAt (UInt32.ofNat (k + 1)) prev.header.endIcount port

/-- Held buttons are those of the greatest event at or before the frame, with
segments numbered in 32 bits; on a path of fewer segments than that the number
is the place in the path. -/
theorem heldAt_greatest {blake3 : Bytes → Bytes32} {segments : List DhilogSegment}
    {timeline : HudTimeline}
    (hvalid : ∀ segment ∈ segments, validateStructure blake3 segment = .ok ())
    (htimeline : HudTimeline.fromSegments segments = .ok timeline) (port : UInt8) :
    (∀ segmentIndex frameIcount,
      Held segments (PadEvent.Before (· % 2 ^ 32) segmentIndex frameIcount) port
        (timeline.heldAt segmentIndex frameIcount port)) ∧
    (segments.length < 2 ^ 32 → FoldsAtFrame segments timeline port) := by
  obtain ⟨rss, hs⟩ := exists_sealedSegments hvalid
  obtain rfl := timeline_eq hs htimeline
  refine ⟨fun segmentIndex frameIcount => held_heldAt hs segmentIndex frameIcount port,
    fun hlen => ⟨fun segmentIndex frameIcount => ?_, ?_⟩⟩
  · refine (held_heldAt hs segmentIndex frameIcount port).congr fun e he => ?_
    have hnumber := he.number_le
    rw [PadEvent.Before, PadEvent.Before, Nat.mod_eq_of_lt (by omega)]
    rfl
  · intro k prev segment frameIcount hprev hsegment hfirst
    exact heldAt_carried hs hlen hprev hsegment hfirst

/-! ### Segments with one pad -/

def padRecord (payload : Bytes) : Record :=
  { kind := kindPadSet
    rflags := 0
    seq := 0
    icount := 0
    boundaryRip := 0
    payload }

def padSegment (payload : Bytes) : DhilogSegment :=
  DhilogSegment.ofRecords Blake3.hash
    (bareHeader 0x0100 (Bytes32.fill 1) (Bytes32.fill 2) Bytes32.zero)
    [padRecord payload, { bareEnd with seq := 1 }]

def pressed : Bytes := zeros 4 ++ le32 3 ++ zeros 4

theorem validate_padSegment :
    validateStructure Blake3.hash (padSegment pressed) = .ok () ∧
      validateStructure Blake3.hash (padSegment []) = .ok () := by
  decide +kernel

theorem records_padSegment {ε : Type} {payload : Bytes} (hlen : payload.length < 2 ^ 16) :
    ((padSegment payload).records : Outcome ε _) =
      .ok ([padRecord payload, { bareEnd with seq := 1 }].map framed) := by
  apply DhilogSegment.records_ofRecords
  intro r hr
  rcases List.mem_cons.mp hr with rfl | hr
  · exact hlen
  · obtain rfl := List.mem_singleton.mp hr
    decide

theorem heldAt_greatest_pressed :
    ∃ timeline, HudTimeline.fromSegments [padSegment pressed] = .ok timeline ∧
      ((∀ segmentIndex frameIcount,
        Held [padSegment pressed] (PadEvent.Before (· % 2 ^ 32) segmentIndex frameIcount) 0
          (timeline.heldAt segmentIndex frameIcount 0)) ∧
      ([padSegment pressed].length < 2 ^ 32 →
        FoldsAtFrame [padSegment pressed] timeline 0)) := by
  have hvalid : ∀ segment ∈ [padSegment pressed],
      validateStructure Blake3.hash segment = .ok () := by
    intro segment hsegment
    rw [List.mem_singleton.mp hsegment]
    exact validate_padSegment.1
  have hrecords := records_padSegment (ε := DhilogError) (show pressed.length < 2 ^ 16 by decide)
  obtain ⟨timeline, htimeline⟩ : ∃ timeline,
      HudTimeline.fromSegments [padSegment pressed] = .ok timeline := by
    rw [HudTimeline.fromSegments, pushSegments, hrecords, ok_bind, pushEvents_eq]
    exact ⟨_, rfl⟩
  exact ⟨timeline, htimeline, heldAt_greatest hvalid htimeline 0⟩

/-- `n` segments without events, then one with a pad. -/
def longPath (n : Nat) : List DhilogSegment :=
  List.replicate n (bareSegment Blake3.hash (Bytes32.fill 1) (Bytes32.fill 2)) ++
    [padSegment pressed]

theorem validate_longPath (n : Nat) :
    ∀ segment ∈ longPath n, validateStructure Blake3.hash segment = .ok () := by
  intro segment hsegment
  rcases List.mem_append.mp hsegment with hbare | hpad
  · rw [List.eq_of_mem_replicate hbare]
    exact (validateStructure_eq_ok _ _).mpr ⟨_, sealedSegment_bare ..⟩
  · rw [List.mem_singleton.mp hpad]
    exact validate_padSegment.1

theorem records_pressed {ε : Type} :
    ((padSegment pressed).records : Outcome ε _) =
      .ok ([padRecord pressed, { bareEnd with seq := 1 }].map framed) :=
  records_padSegment (by decide)

theorem pad_longPath {n k : Nat} {segment : DhilogSegment} {items : List RecordItem}
    {r : Record} {framing : RecordFraming} (hk : (longPath n)[k]? = some segment)
    (hitems : (segment.records : Outcome DhilogError _) = .ok items)
    (hr : .ok (r, framing) ∈ items) (hpad : r.IsPadSet) : k = n ∧ r = padRecord pressed := by
  have hlt := (List.getElem?_eq_some_iff.mp hk).1
  rw [longPath, List.length_append, List.length_replicate, List.length_singleton] at hlt
  rcases (Nat.lt_succ_iff.mp hlt).lt_or_eq with hbefore | rfl
  · -- a segment without events
    rw [longPath, List.getElem?_append_left (by rwa [List.length_replicate]),
      List.getElem?_replicate, if_pos hbefore] at hk
    obtain rfl := Option.some.inj hk
    obtain ⟨q, hq, hframed⟩ := (sealedSegment_bare ..).mem_of_item _ hitems hr
    obtain rfl : r = q := congrArg Prod.fst (Except.ok.inj hframed)
    rw [List.mem_singleton.mp hq] at hpad
    exact absurd hpad (by decide)
  · rw [longPath, List.getElem?_append_right (by simp), List.length_replicate,
      Nat.sub_self] at hk
    obtain rfl := Option.some.inj hk
    obtain rfl := Outcome.ok.inj (records_pressed.symm.trans hitems)
    obtain ⟨q, hq, hframed⟩ := List.mem_map.mp hr
    obtain rfl : q = r := congrArg Prod.fst (Except.ok.inj hframed)
    rcases List.mem_cons.mp hq with rfl | hq
    · exact ⟨rfl, rfl⟩
    · rw [List.mem_singleton.mp hq] at hpad
      exact absurd hpad (by decide)

theorem fromSegments_longPath (n : Nat) :
    ∃ timeline, HudTimeline.fromSegments (longPath n) = .ok timeline := by
  refine (fromSegments_decides (validate_longPath n)).1.mpr ?_
  rintro r ⟨segment, hsegment, items, framing, hitems, hr⟩ hpad
  obtain ⟨k, hk⟩ := List.mem_iff_getElem?.mp hsegment
  obtain ⟨-, rfl⟩ := pad_longPath hk hitems hr hpad
  rfl

theorem padRecord_pressed :
    (padRecord pressed).IsPadSet ∧
      decodePadSet (padRecord pressed).payload = .ok ⟨0, 3, 0⟩ := by
  decide

theorem onPath_longPath (n : Nat) :
    PadEvent.OnPath (longPath n) ⟨n + 1, padRecord pressed, ⟨0, 3, 0⟩⟩ := by
  refine ⟨n, padSegment pressed, _, ⟨true⟩, rfl, ?_, records_pressed, List.mem_cons_self ..,
    padRecord_pressed⟩
  rw [longPath, List.getElem?_append_right (by simp), List.length_replicate, Nat.sub_self]
  rfl

/-- The only event of a path of `2 ^ 32` segments is in the last of them, and
its buttons show in the first. -/
theorem heldAt_wraps :
    ∃ timeline, HudTimeline.fromSegments (longPath (2 ^ 32 - 1)) = .ok timeline ∧
      (∀ segment ∈ longPath (2 ^ 32 - 1), validateStructure Blake3.hash segment = .ok ()) ∧
      timeline.heldAt 1 0 0 = 3 ∧
      ¬FoldsAtFrame (longPath (2 ^ 32 - 1)) timeline 0 := by
  have hwrap : 2 ^ 32 - 1 + 1 = 2 ^ 32 := rfl
  generalize 2 ^ 32 - 1 = n at hwrap
  obtain ⟨timeline, htimeline⟩ := fromSegments_longPath n
  have honly : ∀ e, PadEvent.OnPath (longPath n) e → e.number = 2 ^ 32 ∧ e.pad.buttons = 3 := by
    rintro e ⟨k, segment, items, framing, hnumber, hk, hitems, hr, hpad, hdecode⟩
    obtain ⟨rfl, hrecord⟩ := pad_longPath hk hitems hr hpad
    rw [hrecord] at hdecode
    exact ⟨hnumber.trans hwrap, (congrArg PadSet.buttons (Outcome.ok.inj hdecode)).symm⟩
  have hthree : timeline.heldAt 1 0 0 = 3 := by
    obtain ⟨rss, hs⟩ := exists_sealedSegments (validate_longPath n)
    obtain rfl := timeline_eq hs htimeline
    rcases held_heldAt hs 1 0 0 with ⟨e, he, -, -, hbuttons, -⟩ | ⟨-, hnone⟩
    · exact hbuttons.trans (honly e he).2
    · refine absurd (.inl ?_) (hnone _ (onPath_longPath n) rfl)
      simp only [hwrap, Nat.mod_self]
      decide
  refine ⟨timeline, htimeline, validate_longPath n, hthree, fun hfolds => ?_⟩
  rcases hfolds.greatest 1 0 with ⟨e, he, -, hbefore, -⟩ | ⟨hzero, -⟩
  · rw [PadEvent.Before, id, (honly e he).1] at hbefore
    rcases hbefore with hlt | ⟨heq, -⟩
    · exact absurd hlt (by decide)
    · exact absurd heq (by decide)
  · exact absurd (hthree.symm.trans hzero) (by decide)

/-! ### Containers -/

/-- The timeline of an accepted container exists exactly when its PAD_SET
payloads have the length of a pad; otherwise the error names one that has not. -/
theorem fromSegments_of_read {blake3 : Bytes → Bytes32} {serde : SerdeJson} {b : Bytes}
    {c : DilogContainer} (hread : DilogContainer.read blake3 serde b = .ok c) :
    ((∃ timeline, HudTimeline.fromSegments (c.segments.map ContainerSegment.blob) =
          .ok timeline) ↔
        ∀ r, Record.OnPath (c.segments.map ContainerSegment.blob) r → r.IsPadSet →
          r.payload.length = 12) ∧
      (∀ e, HudTimeline.fromSegments (c.segments.map ContainerSegment.blob) = .err e →
        ∃ r, Record.OnPath (c.segments.map ContainerSegment.blob) r ∧ r.IsBadPad ∧
          e = r.padError) ∧
      HudTimeline.fromSegments (c.segments.map ContainerSegment.blob) ≠ .panic := by
  apply fromSegments_decides
  intro segment hsegment
  obtain ⟨seg, hseg, rfl⟩ := List.mem_map.mp hsegment
  exact ((DilogContainer.read_sound hread).1.agrees seg hseg).structural

def padContainer (payload : Bytes) : DilogContainer :=
  { bareContainer with segments := [tableRow (bareEdge (padSegment payload) (Bytes32.fill 2))] }

theorem valid_padContainer {payload : Bytes}
    (hsegment : validateStructure Blake3.hash (padSegment payload) = .ok ()) :
    (padContainer payload).Valid Blake3.hash bareSerde where
  nonempty := List.cons_ne_nil _ _
  count_lt := by
    change 1 < 2 ^ 32
    norm_num
  meta_version := rfl
  meta_parses := by
    have hnames := plainSerde_toString bareContainer.containerMeta
    rw [ContainerMeta.canonicalBytes, bareSerde, ContainerMeta.canonicalJson_eq hnames]
    exact plainSerde_fromSlice bareContainer.containerMeta
  meta_lt := lt_of_eq_of_lt bareMeta_length (by norm_num)
  agrees := by
    intro seg hseg
    obtain rfl := List.mem_singleton.mp hseg
    exact ⟨List.mem_singleton.mpr rfl, hsegment, rfl, rfl, rfl, rfl, rfl⟩
  chains := ⟨rfl, trivial⟩
  epochs := by
    change bareContainer.epochHashesEverywhere =
      (bareContainer.segments.all fun seg => seg.blob.header.flags &&& flagEpochHashes ≠ 0)
    decide

theorem padFile_length {payload : Bytes} {n : Nat}
    (hblob : (padSegment payload).bytes.length = 8 * n) :
    ((padContainer payload).write Blake3.hash bareSerde).length = 544 + 8 * n := by
  have hblobs : blobsLen (padContainer payload).segments = 8 * n := by
    simp only [padContainer, tableRow, bareEdge, blobsLen_cons, blobsLen_nil, hblob]
    rw [pad8]
    omega
  have hcount : (padContainer payload).segments.length = 1 := rfl
  have hmeta : ((padContainer payload).containerMeta.canonicalBytes bareSerde).length = 185 :=
    bareMeta_length
  rw [DilogContainer.length_write, DilogContainer.length_body, DilogContainer.blobsOff,
    DilogContainer.tableOff, hmeta, hblobs, hcount]
  simp only [headerLen, tableEntryLen, footerLen, pad8]
  omega

theorem padSegment_bytes (payload : Bytes) :
    (padSegment payload).bytes = DhilogHeader.encode (padSegment payload).header ++
      [padRecord payload, { bareEnd with seq := 1 }].flatMap Record.encode := rfl

theorem read_padFile {payload : Bytes} {n : Nat}
    (hsegment : validateStructure Blake3.hash (padSegment payload) = .ok ())
    (hblob : (padSegment payload).bytes.length = 8 * n) (hn : n < 128) :
    DilogContainer.read Blake3.hash bareSerde
        ((padContainer payload).write Blake3.hash bareSerde) = .ok (padContainer payload) := by
  apply DilogContainer.read_write (valid_padContainer hsegment)
  rw [padFile_length hblob]
  norm_num [u64Bound]
  omega

theorem read_pressedFile :
    DilogContainer.read Blake3.hash bareSerde
        ((padContainer pressed).write Blake3.hash bareSerde) = .ok (padContainer pressed) := by
  apply read_padFile (n := 45) validate_padSegment.1
  · rw [padSegment_bytes, List.length_append, DhilogHeader.length_encode]
    decide +kernel
  · decide

theorem onPath_padContainer {payload : Bytes} (hlen : payload.length < 2 ^ 16) {r : Record} :
    Record.OnPath ((padContainer payload).segments.map ContainerSegment.blob) r ↔
      r = padRecord payload ∨ r = { bareEnd with seq := 1 } := by
  have hsegments :
      (padContainer payload).segments.map ContainerSegment.blob = [padSegment payload] := rfl
  rw [hsegments]
  constructor
  · rintro ⟨segment, hsegment, items, framing, hitems, hr⟩
    obtain rfl := List.mem_singleton.mp hsegment
    obtain rfl := Outcome.ok.inj ((records_padSegment hlen).symm.trans hitems)
    obtain ⟨q, hq, hframed⟩ := List.mem_map.mp hr
    obtain rfl : q = r := congrArg Prod.fst (Except.ok.inj hframed)
    simpa using hq
  · intro hr
    exact ⟨_, List.mem_singleton.mpr rfl, _, _, records_padSegment hlen,
      List.mem_map.mpr ⟨r, by simpa using hr, rfl⟩⟩

/-- The pad is on the path, and the timeline exists. -/
theorem fromSegments_of_read_pressed :
    DilogContainer.read Blake3.hash bareSerde
        ((padContainer pressed).write Blake3.hash bareSerde) = .ok (padContainer pressed) ∧
      Record.OnPath ((padContainer pressed).segments.map ContainerSegment.blob)
        (padRecord pressed) ∧
      (padRecord pressed).IsPadSet ∧
      ∃ timeline, HudTimeline.fromSegments
        ((padContainer pressed).segments.map ContainerSegment.blob) = .ok timeline := by
  have hlen : pressed.length < 2 ^ 16 := by decide
  refine ⟨read_pressedFile, (onPath_padContainer hlen).mpr (.inl rfl), padRecord_pressed.1,
    (fromSegments_of_read read_pressedFile).1.mpr fun r hr hpad => ?_⟩
  rcases (onPath_padContainer hlen).mp hr with rfl | rfl
  · rfl
  · exact absurd hpad (by decide)

def emptyPadContainer : DilogContainer :=
  padContainer []

/-- The validator does not look into a PAD_SET payload, so this container is
accepted, and it has no timeline. -/
theorem fromSegments_fails :
    DilogContainer.read Blake3.hash bareSerde (emptyPadContainer.write Blake3.hash bareSerde) =
        .ok emptyPadContainer ∧
      HudTimeline.fromSegments (emptyPadContainer.segments.map ContainerSegment.blob) =
        .err (.framing "PAD_SET payload is 0 bytes, expected 12") := by
  constructor
  · apply @read_padFile [] 43 validate_padSegment.2
    · rw [padSegment_bytes, List.length_append, DhilogHeader.length_encode]
      decide +kernel
    · decide
  · have hsegments : emptyPadContainer.segments.map ContainerSegment.blob = [padSegment []] := rfl
    rw [hsegments, HudTimeline.fromSegments, pushSegments, records_padSegment (by decide), ok_bind,
      pushEvents_eq]
    rfl

end ReplayRenderer
