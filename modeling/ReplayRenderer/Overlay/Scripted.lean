import ReplayRenderer.Overlay.Hud
import ReplayRenderer.Verify.Archive

/-!
The buttons of a script. A script says when which buttons are set; recorded,
assembled, written to a file and read back, the segments give a timeline, and
the buttons held at any frame of it are those the script set last. Nothing else
that the writer puts into a segment is taken for a pad.
-/

namespace ReplayRenderer

open Lib Lib.Outcome

structure ScriptPad where
  number : Nat
  icount : UInt64
  port : UInt8
  buttons : UInt32
  deriving DecidableEq, Repr

def ScriptEvent.pad (number : Nat) (ev : ScriptEvent) : Option ScriptPad :=
  match ev.event with
  | .padSet port buttons _ => some { number, icount := ev.icount, port, buttons }
  | _ => none

def scriptPads : Nat → List SegmentSpec → List ScriptPad
  | _, [] => []
  | number, spec :: specs =>
    spec.events.filterMap (ScriptEvent.pad number) ++ scriptPads (number + 1) specs

/-- What the script has set last at a frame of segment `number`, in it or in a
segment before it. -/
def scriptHeld (specs : List SegmentSpec) (number : Nat) (frameIcount : UInt64) (port : UInt8) :
    UInt32 :=
  (((scriptPads 1 specs).filter fun pad => decide (pad.port = port ∧
    (pad.number < number ∨ (pad.number = number ∧ pad.icount ≤ frameIcount)))).getLast?.map
      ScriptPad.buttons).getD 0

def PadEvent.scripted (e : PadEvent) : ScriptPad where
  number := e.number
  icount := e.record.icount
  port := e.pad.port
  buttons := e.pad.buttons

section Scripted

variable {blake3 : Bytes → Bytes32} {serde : SerdeJson} {root : PathNode}
  {specs : List SegmentSpec} {edges : List Edge} {spec : SegmentSpec} {segment : DhilogSegment}
  {hash : Bytes32}

/-- A record of a scripted event is a pad when the event is, and the same. -/
theorem padEventOf_readFrom {number : Nat} {ev : ScriptEvent} {r : Record}
    (h : ev.ReadFrom r) (hcanonical : r.isAux = false) :
    (padEventOf number r).map PadEvent.scripted = ev.pad number ∧ ¬r.IsBadPad := by
  obtain ⟨icount, event⟩ := ev
  obtain ⟨hicount, hkind, hpayload⟩ := h
  cases event with
  | padSet port buttons frameHint =>
      have hdecode : decodePadSet r.payload = .ok ⟨port, buttons, frameHint⟩ := hpayload
      have hevent : padEventOf number r = some ⟨number, r, ⟨port, buttons, frameHint⟩⟩ :=
        padEventOf_eq_some.mpr ⟨⟨hcanonical, hkind⟩, rfl, rfl, hdecode⟩
      refine ⟨?_, fun hbad => hbad.2 (decodePadSet_eq_ok.mp hdecode).1⟩
      rw [hevent]
      simp only [Option.map_some, PadEvent.scripted, ScriptEvent.pad, hicount]
  | devEvent deviceId eventType data =>
      have hkind' : r.kind = kindDevEvent := hkind
      have hother : ¬r.IsPadSet := fun hpad => absurd (hkind'.symm.trans hpad.2) (by decide)
      exact ⟨by rw [padEventOf, if_neg hother]; rfl, fun hbad => hother hbad.1⟩
  | netRx frame =>
      have hkind' : r.kind = kindNetRx := hkind
      have hother : ¬r.IsPadSet := fun hpad => absurd (hkind'.symm.trans hpad.2) (by decide)
      exact ⟨by rw [padEventOf, if_neg hother]; rfl, fun hbad => hother hbad.1⟩

theorem padEvents_canonicalOf (number : Nat) (rs : List Record) :
    padEvents number (canonicalOf rs) = padEvents number rs := by
  induction rs with
  | nil => rfl
  | cons r rs ih =>
      unfold canonicalOf at ih ⊢
      by_cases haux : r.isAux = false
      · rw [List.filter_cons_of_pos (by simpa using haux), padEvents, padEvents,
          List.filterMap_cons, List.filterMap_cons]
        simp only [padEvents] at ih
        rw [ih]
      · have hother : padEventOf number r = none := if_neg fun hpad => haux hpad.1
        rw [List.filter_cons_of_neg (by simpa using haux), ih, padEvents, padEvents,
          List.filterMap_cons_none hother]

theorem padEvents_recordList (hw : WrittenAs blake3 spec segment hash) (hwritable : Writable spec)
    (number : Nat) :
    (padEvents number (spec.recordList blake3)).map PadEvent.scripted =
        spec.events.filterMap (ScriptEvent.pad number) ∧
      ∀ r ∈ spec.recordList blake3, ¬r.IsBadPad := by
  have hevents := (hw.readsBack hwritable.fits).events
  have hcanonical : ∀ r ∈ canonicalOf (spec.recordList blake3), r.isAux = false := by
    intro r hr
    simpa using (List.mem_filter.mp hr).2
  have hmem : ∀ r ∈ spec.recordList blake3, r.IsBadPad → r ∈ canonicalOf (spec.recordList blake3) :=
    fun r hr hbad => List.mem_filter.mpr ⟨hr, by simpa using hbad.1.1⟩
  rw [← padEvents_canonicalOf]
  generalize canonicalOf (spec.recordList blake3) = rs at hevents hcanonical hmem
  have hboth : (padEvents number rs).map PadEvent.scripted =
      spec.events.filterMap (ScriptEvent.pad number) ∧ ∀ r ∈ rs, ¬r.IsBadPad := by
    clear hmem
    generalize spec.events = events at hevents
    induction hevents with
    | nil => exact ⟨rfl, by simp⟩
    | @cons ev r evs rs hread _ ih =>
        have hpad : (padEventOf number r).map PadEvent.scripted = ev.pad number ∧ ¬r.IsBadPad :=
          padEventOf_readFrom hread (hcanonical r List.mem_cons_self)
        obtain ⟨hhead, hgood⟩ := hpad
        obtain ⟨htail, hrest⟩ := ih fun q hq => hcanonical q (List.mem_cons_of_mem _ hq)
        refine ⟨?_, List.forall_mem_cons.mpr ⟨hgood, hrest⟩⟩
        rw [padEvents, List.filterMap_cons, List.filterMap_cons, ← hhead]
        cases padEventOf number r with
        | none => exact htail
        | some e => exact congrArg (e.scripted :: ·) htail
  exact ⟨hboth.1, fun r hr hbad => hboth.2 r (hmem r hr hbad) hbad⟩

theorem RecordedPath.sealed {base : SnapshotRef} (h : RecordedPath blake3 base specs edges)
    (hhashes : ∀ edge ∈ edges, edge.1.attrs.stateHash ≠ some Bytes32.zero) :
    List.Forall₂ (SealedSegment blake3) (edges.map Prod.snd)
      (specs.map (SegmentSpec.recordList blake3)) := by
  induction h with
  | nil => exact .nil
  | cons write parse base_eq snapshot stateHash rest ih =>
      obtain ⟨hfirst, hrest⟩ := List.forall_mem_cons.mp hhashes
      obtain ⟨segment', hparse, hw⟩ := writtenAs_of_writeSegment write
      obtain rfl := Outcome.ok.inj (parse.symm.trans hparse)
      have hfits := (exists_writeSegment_iff.mp ⟨_, write⟩).1.fits
      refine .cons (hw.sealedSegment hfits ?_) (ih hrest)
      rintro rfl
      exact hfirst stateHash

theorem RecordedPath.timelineEvents {base : SnapshotRef}
    (h : RecordedPath blake3 base specs edges) (number : Nat) :
    (timelineEvents number (specs.map (SegmentSpec.recordList blake3))).map PadEvent.scripted =
        scriptPads number specs ∧
      ∀ r ∈ (specs.map (SegmentSpec.recordList blake3)).flatten, ¬r.IsBadPad := by
  induction h generalizing number with
  | nil => exact ⟨rfl, by simp⟩
  | cons write parse base_eq snapshot stateHash rest ih =>
      obtain ⟨segment', -, hw⟩ := writtenAs_of_writeSegment write
      obtain ⟨hpads, hgood⟩ :=
        padEvents_recordList hw (exists_writeSegment_iff.mp ⟨_, write⟩).1 number
      obtain ⟨htail, hrest⟩ := ih (number + 1)
      refine ⟨?_, ?_⟩
      · rw [List.map_cons, ReplayRenderer.timelineEvents, List.map_append, hpads, htail, scriptPads]
      · rw [List.map_cons, List.flatten_cons]
        intro r hr
        rcases List.mem_append.mp hr with hr | hr
        · exact hgood r hr
        · exact hrest r hr

/-- The timeline of a recorded path holds what the script has set last. -/
theorem RecordedPath.heldAt {base : SnapshotRef} (h : RecordedPath blake3 base specs edges)
    (hhashes : ∀ edge ∈ edges, edge.1.attrs.stateHash ≠ some Bytes32.zero)
    (hlen : specs.length < 2 ^ 32) :
    ∃ timeline, HudTimeline.fromSegments (edges.map Prod.snd) = .ok timeline ∧
      ∀ segmentIndex frameIcount port, timeline.heldAt segmentIndex frameIcount port =
        scriptHeld specs segmentIndex.toNat frameIcount port := by
  obtain ⟨hpads, hgood⟩ := h.timelineEvents 1
  have hsealed := h.sealed hhashes
  have hnone : ((specs.map (SegmentSpec.recordList blake3)).flatten.find?
      fun r => decide r.IsBadPad) = none :=
    List.find?_eq_none.mpr fun r hr hbad => hgood r hr (of_decide_eq_true hbad)
  refine ⟨_, (fromSegments_eq hsealed).trans (by rw [hnone]), ?_⟩
  intro segmentIndex frameIcount port
  rw [heldAt_timelineEvents, scriptHeld, ← hpads, List.filter_map, List.getLast?_map,
    Option.map_map]
  congr 3
  refine List.filter_congr fun e he => decide_eq_decide.mpr (and_congr_right fun _ => ?_)
  -- the numbers of the segments are below the width of the field
  have hnumber := ((onPath_iff hsealed).mpr he).number_le
  rw [List.length_map, h.length_eq] at hnumber
  rw [PadEvent.Before, Nat.mod_eq_of_lt (by omega)]
  rfl

/-- From the script to the overlay: the container of a recorded path comes back
from its file, and the buttons held at every frame of its segments are those the
script has set last. -/
theorem archive_heldAt {ctx : ContainerContext}
    (hpath : RecordedPath blake3 root.snapshotRef specs edges)
    (ha : Archivable root specs edges)
    (hstored : ∀ c, assemble blake3 root edges ctx = .ok c → Storable blake3 serde c)
    (hlen : specs.length < 2 ^ 32) :
    ∃ c timeline, assemble blake3 root edges ctx = .ok c ∧
      DilogContainer.read blake3 serde (c.write blake3 serde) = .ok c ∧
      HudTimeline.fromSegments (c.segments.map ContainerSegment.blob) = .ok timeline ∧
      ∀ segmentIndex frameIcount port, timeline.heldAt segmentIndex frameIcount port =
        scriptHeld specs segmentIndex.toNat frameIcount port := by
  obtain ⟨c, hassemble, hread, hsegments⟩ := archived hpath ha hstored hlen
  obtain ⟨timeline, htimeline, hheld⟩ := hpath.heldAt ha.hashes hlen
  refine ⟨c, timeline, hassemble, hread, ?_, hheld⟩
  rw [hsegments, List.map_map]
  exact htimeline

end Scripted

theorem archive_heldAt_leadIn :
    ∃ edges c timeline, assemble Blake3.hash pathRoot edges bareContext = .ok c ∧
      DilogContainer.read Blake3.hash bareSerde (c.write Blake3.hash bareSerde) = .ok c ∧
      HudTimeline.fromSegments (c.segments.map ContainerSegment.blob) = .ok timeline ∧
      ∀ segmentIndex frameIcount port, timeline.heldAt segmentIndex frameIcount port =
        scriptHeld [leadIn] segmentIndex.toNat frameIcount port := by
  obtain ⟨edges, hpath, harchivable, hstored⟩ := exists_archivable_leadIn
  obtain ⟨c, timeline, hassemble, hread, htimeline, hheld⟩ :=
    archive_heldAt hpath harchivable hstored (by decide)
  exact ⟨edges, c, timeline, hassemble, hread, htimeline, hheld⟩

/-- The pad of the script, from its icount on. -/
example : scriptHeld [leadIn] 1 4095 0 = 0 ∧ scriptHeld [leadIn] 1 4096 0 = 1 := by decide

end ReplayRenderer
