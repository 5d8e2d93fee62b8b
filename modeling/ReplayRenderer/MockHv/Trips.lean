import ReplayRenderer.MockHv.Corrupt

/-!
A helper that changes records mends the body hash after it, so that the rule
it is named for is the one that trips. Here is that it does: the validator
stops at what the helper did, with that message, and at nothing before.
-/

namespace ReplayRenderer

open Lib Lib.Outcome

/-! ### Where the validator stops -/

section Validator

variable {h h' : DhilogHeader} {walk : RecordWalk} {r : Record}

theorem validateRecords_append (h : DhilogHeader) (walk : RecordWalk)
    (xs ys : List RecordItem) :
    validateRecords h walk (xs ++ ys) =
      validateRecords h walk xs >>= fun walk' => validateRecords h walk' ys := by
  induction xs generalizing walk with
  | nil => rfl
  | cons x xs ih => simp only [List.cons_append, validateRecords, ih, bind_assoc]

/-- The checks ahead of the numbering look at neither number. -/
theorem validateRecord_renumbered (hr : RecordAllowed h r) (hicount : h'.endIcount = h.endIcount)
    (hseen : walk.endSeen = false) (hcount : walk.count < 2 ^ 32) (seq : UInt32)
    (icount : UInt64) :
    validateRecord h' walk (framed { r with seq, icount }) = (do
      rejectIf (seq ≠ UInt32.ofNat walk.count)
        (issueR5 ("seq " ++ toString seq.toNat ++ " at record index "
          ++ toString walk.count ++ " (seq starts 0, step 1)"))
      rejectIf (icount < walk.prevIcount)
        (issueR5 ("icount " ++ toString icount.toNat ++ " decreases (prev "
          ++ toString walk.prevIcount.toNat ++ ")"))
      rejectIf (h.endIcount < icount)
        (issueR5 ("record icount " ++ toString icount.toNat ++ " > end_icount "
          ++ toString h.endIcount.toNat))
      if r.kind = kindEnd ∧ r.isAux = true then
        validateEnd h' { r with seq, icount }
        pure { count := walk.count + 1, prevIcount := icount, endSeen := true }
      else
        pure { walk with count := walk.count + 1, prevIcount := icount }) := by
  obtain ⟨hnet, hkinds⟩ := (canonical_iff hr.rflags).mpr hr.canonical
  have hflags := (rflags_undefined_iff r.rflags).mpr hr.rflags
  have haux : ({ r with seq, icount } : Record).isAux = r.isAux := rfl
  simp only [validateRecord, framed, haux, hicount]
  rw [rejectIf_neg (by simp [hseen]), ok_bind, rejectIf_neg (by simp), ok_bind,
    rejectIf_neg (not_not.mpr hflags), ok_bind, rejectIf_neg (not_lt.mpr hr.payload_le), ok_bind,
    rejectIf_neg hnet, ok_bind, rejectIf_neg hkinds, ok_bind, rejectIf_neg (by omega), ok_bind]

theorem validateRecord_gap (hr : RecordAllowed h r) (hseen : walk.endSeen = false)
    (hcount : walk.count < 2 ^ 32) {seq : UInt32} (hseq : seq ≠ UInt32.ofNat walk.count)
    (hicount : h'.endIcount = h.endIcount) :
    validateRecord h' walk (framed { r with seq }) =
      .err (issueR5 ("seq " ++ toString seq.toNat ++ " at record index "
        ++ toString walk.count ++ " (seq starts 0, step 1)")) := by
  have hrecord := validateRecord_renumbered hr hicount hseen hcount seq r.icount
  rw [rejectIf_pos hseq, err_bind] at hrecord
  exact hrecord

theorem validateRecord_pastEnd (hr : RecordAllowed h r) (hseen : walk.endSeen = false)
    (hseq : r.seq.toNat = walk.count) (hprev : walk.prevIcount ≤ r.icount) {icount : UInt64}
    (hpast : h.endIcount < icount) (hicount : h'.endIcount = h.endIcount) :
    validateRecord h' walk (framed { r with icount }) =
      .err (issueR5 ("record icount " ++ toString icount.toNat ++ " > end_icount "
        ++ toString h.endIcount.toNat)) := by
  obtain ⟨hcount, hseq'⟩ := seq_iff.mpr hseq
  have hrecord := validateRecord_renumbered hr hicount hseen (by omega) r.seq icount
  have habove : ¬icount < walk.prevIcount := by
    have hle := UInt64.le_trans hprev hr.icount_le
    exact UInt64.not_lt.mpr (UInt64.le_trans hle (UInt64.le_of_lt hpast))
  rw [rejectIf_neg (not_not.mpr hseq'), ok_bind, rejectIf_neg habove, ok_bind,
    rejectIf_pos hpast, err_bind] at hrecord
  exact hrecord

/-- A record that the grammar allows here, under a header that ends at the
same place: the walk moves on, and the rest is as it was. -/
theorem validateRecord_walks {rs : List Record} (hw : WalksFrom h walk (r :: rs)) (hrs : rs ≠ [])
    (hseen : walk.endSeen = false) (hicount : h'.endIcount = h.endIcount) :
    validateRecord h' walk (framed r) = .ok ⟨walk.count + 1, r.icount, false⟩ ∧
      WalksFrom h ⟨walk.count + 1, r.icount, false⟩ rs := by
  obtain ⟨hr, hseq, hprev, ⟨rfl, -⟩ | ⟨hnot, hrest⟩⟩ := walksFrom_cons.mp hw
  · exact absurd rfl hrs
  have hr' : RecordAllowed h' r :=
    ⟨hr.rflags, hr.payload_le, hr.canonical, by rw [hicount]; exact hr.icount_le⟩
  refine ⟨validateRecord_eq_ok.mpr ⟨hseen, hr', hseq, hprev, fun hend => absurd hend hnot, ?_⟩,
    hrest⟩
  rw [decide_eq_false hnot]

/-- What comes ahead of a record of the stream passes. -/
theorem validateRecords_prefix {xs ys : List Record} (hw : WalksFrom h walk (xs ++ r :: ys))
    (hseen : walk.endSeen = false) (hicount : h'.endIcount = h.endIcount) :
    ∃ walk', validateRecords h' walk (xs.map framed) = .ok walk' ∧ walk'.endSeen = false ∧
      walk'.count = walk.count + xs.length ∧ WalksFrom h walk' (r :: ys) := by
  induction xs generalizing walk with
  | nil => exact ⟨walk, rfl, hseen, rfl, hw⟩
  | cons x xs ih =>
      obtain ⟨hstep, hrest⟩ := validateRecord_walks hw (by simp) hseen hicount
      obtain ⟨walk', hrun, hseen', hcount, hw'⟩ := ih hrest rfl
      refine ⟨walk', ?_, hseen', ?_, hw'⟩
      · rw [List.map_cons, validateRecords, hstep, ok_bind, hrun]
      · simp only [hcount, List.length_cons]
        omega

/-- The loop, on a stream with one record replaced. -/
theorem validateRecords_set {rs : List Record} {i : Nat} {r' : Record}
    (hg : SealedGrammar h rs) (hr : rs[i]? = some r) (hicount : h'.endIcount = h.endIcount) :
    ∃ walk, walk.endSeen = false ∧ walk.count = i ∧
      WalksFrom h walk (r :: rs.drop (i + 1)) ∧
      validateRecords h' RecordWalk.start ((rs.set i r').map framed) =
        validateRecord h' walk (framed r') >>= fun walk' =>
          validateRecords h' walk' ((rs.drop (i + 1)).map framed) := by
  obtain ⟨hi, rfl⟩ := List.getElem?_eq_some_iff.mp hr
  have hsplit : rs.take i ++ rs[i] :: rs.drop (i + 1) = rs := by
    rw [← List.drop_eq_getElem_cons hi, List.take_append_drop]
  have hw : WalksFrom h RecordWalk.start (rs.take i ++ rs[i] :: rs.drop (i + 1)) := by
    rw [hsplit]
    exact (sealedGrammar_iff.mp hg).1
  obtain ⟨walk, hrun, hseen, hcount, hw'⟩ := validateRecords_prefix hw rfl hicount
  refine ⟨walk, hseen, ?_, hw', ?_⟩
  · rw [hcount, List.length_take, Nat.min_eq_left hi.le, RecordWalk.start, Nat.zero_add]
  · rw [List.set_eq_take_append_cons_drop, if_pos hi, List.map_append, validateRecords_append,
      hrun, ok_bind, List.map_cons, validateRecords]

/-- Where the validator stops ahead of the records. -/
theorem validateStructure_unsealed {blake3 : Bytes → Bytes32} {segment : DhilogSegment}
    (hclear : segment.header.flags &&& flagSealed = 0) :
    validateStructure blake3 segment =
      .err (issueR4 "flags.SEALED == 0 (unsealed crash artifact)") := by
  rw [validateStructure, rejectIf_pos hclear, err_bind]

theorem validateStructure_of_header {blake3 : Bytes → Bytes32} {segment : DhilogSegment}
    {issue : StructuralIssue} (hsealed : segment.header.flags &&& flagSealed ≠ 0)
    (hissue : (segment.header.endStateHash = Bytes32.zero ∧
        issue = issueR4 "end_state_hash is zero") ∨
      (segment.header.endStateHash ≠ Bytes32.zero ∧
        blake3 (segment.bytes.drop dhilogHeaderLen) ≠ segment.header.bodyHash ∧
        issue = issueR4 "body_hash mismatch over [256, EOF)")) :
    validateStructure blake3 segment = .err issue := by
  rw [validateStructure, rejectIf_neg hsealed, ok_bind]
  rcases hissue with ⟨hzero, rfl⟩ | ⟨hzero, hbody, rfl⟩
  · rw [rejectIf_pos hzero, err_bind]
  · rw [rejectIf_neg hzero, ok_bind, segment.slice_body, ok_bind, rejectIf_pos hbody, err_bind]

theorem validateStructure_ofParts (blake3 : Bytes → Bytes32) {rs : List Record}
    (hsealed : h.flags &&& flagSealed ≠ 0) (hzero : h.endStateHash ≠ Bytes32.zero)
    (hhash : blake3 (rs.flatMap Record.encode) = h.bodyHash)
    (hlen : ∀ r ∈ rs, r.payload.length < 2 ^ 16) :
    validateStructure blake3 (DhilogSegment.ofParts h (rs.flatMap Record.encode)) = (do
      let walk ← validateRecords h RecordWalk.start (rs.map framed)
      rejectIf (walk.endSeen = false) (issueR4 "terminal END record missing")
      rejectIf (walk.count ≠ h.recordCount.toNat)
        (issueR4 ("record_count " ++ toString h.recordCount.toNat ++ " != actual "
          ++ toString walk.count))) := by
  obtain ⟨items, hitems, hspec⟩ :=
    (DhilogSegment.ofParts h (rs.flatMap Record.encode)).records_eq_ok (ε := StructuralIssue)
  obtain rfl := (hspec rs).mpr ⟨DhilogSegment.drop_ofParts _ _, hlen⟩
  have hheader : (DhilogSegment.ofParts h (rs.flatMap Record.encode)).header = h := rfl
  simp only [validateStructure, DhilogSegment.slice_body, DhilogSegment.drop_ofParts, hitems,
    ok_bind, hheader]
  rw [rejectIf_neg hsealed, ok_bind, rejectIf_neg hzero, ok_bind,
    rejectIf_neg (not_not.mpr hhash), ok_bind]

end Validator

/-! ### Every helper trips its violation -/

inductive Corruption where
  | version (v : UInt16)
  | machineConfigHash (hash : Bytes32)
  | clock (num den : UInt32)
  | baseSnapshotId (id : Bytes32)
  | endStateHash (hash : Bytes32)
  | unsealed
  | bodyByte
  | missingEnd
  | seqGap (index : Nat)
  | recordIcount (index : Nat) (icount : UInt64)

namespace Corruption

variable {ε : Type} (blake3 : Bytes → Bytes32)

def apply (bytes : Bytes) : Corruption → Outcome ε Bytes
  | .version v => setVersion bytes v
  | .machineConfigHash hash => setMachineConfigHash bytes hash
  | .clock num den => setClock bytes num den
  | .baseSnapshotId id => setBaseSnapshotId bytes id
  | .endStateHash hash => setEndStateHash bytes hash
  | .unsealed => clearSealedFlag bytes
  | .bodyByte => flipBodyByte bytes
  | .missingEnd => stripEndRecord blake3 bytes
  | .seqGap index => gapSeq blake3 bytes index
  | .recordIcount index icount => setRecordIcount blake3 bytes index icount

/-- The call changes what its rule looks at: another value than the one in
place, a record that is there. Of the flipped byte, that the hash sees it. -/
def Damages (h : DhilogHeader) (rs : List Record) : Corruption → Prop
  | .version v => v ∉ supportedDhilogVersions
  | .machineConfigHash hash => hash ≠ h.machineConfigHash
  | .clock num den => (num, den) ≠ (h.clockNum, h.clockDen)
  | .baseSnapshotId id => id ≠ h.baseSnapshotId
  | .endStateHash hash => hash ≠ h.endStateHash
  | .unsealed => True
  | .bodyByte =>
    blake3 ((rs.flatMap Record.encode).modify 24 (· ^^^ 0xFF)) ≠
      blake3 (rs.flatMap Record.encode)
  | .missingEnd => True
  | .seqGap index => index < rs.length ∧ index + 1 < 2 ^ 32
  | .recordIcount index icount => index < rs.length ∧ h.endIcount < icount

def rehashed (h : DhilogHeader) (rs : List Record) : DhilogSegment :=
  DhilogSegment.ofParts { h with bodyHash := blake3 (rs.flatMap Record.encode) }
    (rs.flatMap Record.encode)

def made (h : DhilogHeader) (rs : List Record) : Corruption → DhilogSegment
  | .version v => DhilogSegment.ofParts { h with version := v } (rs.flatMap Record.encode)
  | .machineConfigHash hash =>
    DhilogSegment.ofParts { h with machineConfigHash := hash } (rs.flatMap Record.encode)
  | .clock num den =>
    DhilogSegment.ofParts { h with clockNum := num, clockDen := den }
      (rs.flatMap Record.encode)
  | .baseSnapshotId id =>
    DhilogSegment.ofParts { h with baseSnapshotId := id } (rs.flatMap Record.encode)
  | .endStateHash hash =>
    DhilogSegment.ofParts { h with endStateHash := hash } (rs.flatMap Record.encode)
  | .unsealed =>
    DhilogSegment.ofParts { h with flags := h.flags &&& ~~~1 } (rs.flatMap Record.encode)
  | .bodyByte =>
    DhilogSegment.ofParts h ((rs.flatMap Record.encode).modify 24 (· ^^^ 0xFF))
  | .missingEnd =>
    rehashed blake3 { h with recordCount := UInt64.ofNat (rs.length - 1) } rs.dropLast
  | .seqGap index =>
    rehashed blake3 h
      (rs.modify index fun r => { r with seq := UInt32.ofNat (r.seq.toNat + 1) })
  | .recordIcount index icount => rehashed blake3 h (rs.modify index fun r => { r with icount })

/-- What the validator says of it: the four that a single segment does not
show pass. -/
def verdict (h : DhilogHeader) : Corruption → Outcome StructuralIssue Unit
  | .version _ => .ok ()
  | .machineConfigHash _ => .ok ()
  | .clock _ _ => .ok ()
  | .baseSnapshotId _ => .ok ()
  | .endStateHash hash =>
    if hash = Bytes32.zero then .err (issueR4 "end_state_hash is zero")
    else .err (issueR4 "END end_state_hash != header end_state_hash")
  | .unsealed => .err (issueR4 "flags.SEALED == 0 (unsealed crash artifact)")
  | .bodyByte => .err (issueR4 "body_hash mismatch over [256, EOF)")
  | .missingEnd => .err (issueR4 "terminal END record missing")
  | .seqGap index =>
    .err (issueR5 ("seq " ++ toString (index + 1) ++ " at record index " ++ toString index
      ++ " (seq starts 0, step 1)"))
  | .recordIcount _ icount =>
    .err (issueR5 ("record icount " ++ toString icount.toNat ++ " > end_icount "
      ++ toString h.endIcount.toNat))

end Corruption

section Trips

variable {blake3 : Bytes → Bytes32} {segment : DhilogSegment} {rs : List Record}

theorem SealedSegment.eq_ofParts (hs : SealedSegment blake3 segment rs) :
    segment = DhilogSegment.ofParts segment.header (rs.flatMap Record.encode) := by
  have hparts := segment.eq_ofParts
  rwa [hs.body] at hparts

theorem SealedSegment.bytes_eq (hs : SealedSegment blake3 segment rs) :
    segment.bytes = segment.header.encode ++ rs.flatMap Record.encode :=
  congrArg DhilogSegment.bytes hs.eq_ofParts

/-- The END record is long enough for every byte of the first payload place. -/
theorem SealedSegment.exists_byte (hs : SealedSegment blake3 segment rs) :
    ∃ b, (rs.flatMap Record.encode)[24]? = some b := by
  obtain ⟨init, last, rfl, -, hlast, -⟩ := hs.grammar.terminal
  have hlen : 24 < ((init ++ [last]).flatMap Record.encode).length := by
    have hend := last.length_encode
    rw [hlast.payload_length] at hend
    simp only [List.flatMap_append, List.flatMap_singleton, List.length_append, hend,
      recordHeaderLen, pad8]
    omega
  exact ⟨_, List.getElem?_eq_getElem hlen⟩

theorem modify_eq_set_of_getElem? {α : Type} {xs : List α} {i : Nat} {x : α} (f : α → α)
    (hx : xs[i]? = some x) : xs.modify i f = xs.set i (f x) := by
  obtain ⟨hi, rfl⟩ := List.getElem?_eq_some_iff.mp hx
  rw [List.modify_eq_take_cons_drop hi, List.set_eq_take_append_cons_drop, if_pos hi]

/-- Of a sealed segment every helper makes the segment it means. -/
theorem Corruption.apply_eq {ε : Type} {c : Corruption} (hs : SealedSegment blake3 segment rs)
    (hd : c.Damages blake3 segment.header rs) :
    (c.apply blake3 segment.bytes : Outcome ε Bytes) =
      .ok (c.made blake3 segment.header rs).bytes := by
  have hlen := hs.grammar.payload_lt
  rw [hs.bytes_eq]
  cases c with
  | version v => exact setVersion_encode _ _ _
  | machineConfigHash hash => exact setMachineConfigHash_encode _ _ _
  | clock num den => exact setClock_encode _ _ _ _
  | baseSnapshotId id => exact setBaseSnapshotId_encode _ _ _
  | endStateHash hash => exact setEndStateHash_encode _ _ _
  | unsealed => exact clearSealedFlag_encode _ _
  | bodyByte =>
      obtain ⟨b, hb⟩ := hs.exists_byte
      have hmade := modify_eq_set_of_getElem? (· ^^^ 0xFF) hb
      rw [Corruption.apply, flipBodyByte_encode hlen hb, Corruption.made, hmade]
      rfl
  | missingEnd =>
      obtain ⟨init, last, rfl, hend, -, -⟩ := hs.grammar.terminal
      rw [Corruption.apply, stripEndRecord_encode blake3 hlen hend.1, recomputeBodyHash_encode,
        Corruption.made, List.dropLast_concat, List.length_append, List.length_singleton,
        Nat.add_sub_cancel]
      rfl
  | seqGap index =>
      obtain ⟨hi, hseq⟩ := hd
      have hr := List.getElem?_eq_getElem hi
      have hnumber := hs.grammar.seq index _ hr
      rw [Corruption.apply, gapSeq_encode blake3 hlen hr (by omega), recomputeBodyHash_encode,
        Corruption.made, modify_eq_set_of_getElem? _ hr]
      rfl
  | recordIcount index icount =>
      have hr := List.getElem?_eq_getElem hd.1
      rw [Corruption.apply, setRecordIcount_encode blake3 hlen hr, recomputeBodyHash_encode,
        Corruption.made, modify_eq_set_of_getElem? _ hr]
      rfl

/-- Header fields that the grammar does not speak of. -/
theorem SealedSegment.of_header {h : DhilogHeader} (hs : SealedSegment blake3 segment rs)
    (hflags : h.flags = segment.header.flags)
    (hstate : h.endStateHash = segment.header.endStateHash)
    (hbody : h.bodyHash = segment.header.bodyHash)
    (hcount : h.recordCount = segment.header.recordCount)
    (hicount : h.endIcount = segment.header.endIcount) :
    SealedSegment blake3 (DhilogSegment.ofParts h (rs.flatMap Record.encode)) rs where
  isSealed := by
    change h.flags &&& flagSealed ≠ 0
    rw [hflags]
    exact hs.isSealed
  hash_ne_zero := by
    change h.endStateHash ≠ Bytes32.zero
    rw [hstate]
    exact hs.hash_ne_zero
  body_hash := by
    change blake3 _ = h.bodyHash
    rw [DhilogSegment.drop_ofParts, hbody, ← hs.body_hash, hs.body]
  body := DhilogSegment.drop_ofParts _ _
  grammar :=
    { count := by
        change rs.length = h.recordCount.toNat
        rw [hcount]
        exact hs.grammar.count
      seq := hs.grammar.seq
      monotone := hs.grammar.monotone
      allowed := by
        intro r hr
        obtain ⟨hrflags, hpayload, hkind, hle⟩ := hs.grammar.allowed r hr
        refine ⟨hrflags, hpayload, hkind, ?_⟩
        change r.icount ≤ h.endIcount
        rwa [hicount]
      terminal := by
        obtain ⟨init, last, hrs, hend, ⟨hat, hpayload, hcarries⟩, hinit⟩ := hs.grammar.terminal
        refine ⟨init, last, hrs, hend, ⟨?_, hpayload, ?_⟩, hinit⟩
        · change last.icount = h.endIcount
          rwa [hicount]
        · change SitsAt last.payload 8 h.endStateHash.bytes
          rwa [hstate] }

theorem validateEnd_mismatch {h h' : DhilogHeader} {r : Record} (hr : EndAllowed h r)
    (hicount : h'.endIcount = h.endIcount) (hstate : h.endStateHash ≠ h'.endStateHash) :
    validateEnd h' r = .err (issueR4 "END end_state_hash != header end_state_hash") := by
  obtain ⟨terminal, hdecode, hrest⟩ := bind_eq_ok.mp
    (validateEnd_eq_ok.mpr hr : validateEnd h r = .ok ())
  obtain ⟨_, hat, hhash⟩ := bind_eq_ok.mp hrest
  have hhash' : terminal.endStateHash = h.endStateHash := not_not.mp (rejectIf_eq_ok.mp hhash)
  rw [validateEnd, hdecode, ok_bind, hicount, hat, ok_bind, rejectIf_pos]
  rwa [hhash']

theorem validateRecords_mismatch {h h' : DhilogHeader} (hg : SealedGrammar h rs)
    (hicount : h'.endIcount = h.endIcount) (hstate : h.endStateHash ≠ h'.endStateHash) :
    validateRecords h' RecordWalk.start (rs.map framed) =
      .err (issueR4 "END end_state_hash != header end_state_hash") := by
  obtain ⟨init, last, rfl, hend, hlast, -⟩ := hg.terminal
  obtain ⟨walk, hrun, hseen, -, hw⟩ :=
    validateRecords_prefix (sealedGrammar_iff.mp hg).1 rfl hicount
  obtain ⟨hr, hseq, hprev, -⟩ := walksFrom_cons.mp hw
  obtain ⟨hcount, hseq'⟩ := seq_iff.mpr hseq
  have haux : last.kind = kindEnd ∧ last.isAux = true :=
    ⟨hend.1, (Record.isAux_iff hr.rflags).mpr hend.2⟩
  have hrecord := validateRecord_renumbered hr hicount hseen (by omega) last.seq last.icount
  rw [rejectIf_neg (not_not.mpr hseq'), ok_bind, rejectIf_neg (UInt64.not_lt.mpr hprev), ok_bind,
    rejectIf_neg (UInt64.not_lt.mpr hr.icount_le), ok_bind, if_pos haux,
    validateEnd_mismatch hlast hicount hstate, err_bind] at hrecord
  rw [List.map_append, validateRecords_append, hrun, ok_bind, List.map_singleton,
    validateRecords, hrecord, err_bind]

theorem Corruption.validateStructure_rehashed {h : DhilogHeader} {rs : List Record}
    (hsealed : h.flags &&& flagSealed ≠ 0) (hzero : h.endStateHash ≠ Bytes32.zero)
    (hlen : ∀ r ∈ rs, r.payload.length < 2 ^ 16) {issue : StructuralIssue}
    (hwalk : ∀ h', h'.endIcount = h.endIcount →
      validateRecords h' RecordWalk.start (rs.map framed) = .err issue) :
    validateStructure blake3 (Corruption.rehashed blake3 h rs) = .err issue := by
  have hstructure := validateStructure_ofParts blake3
    (h := { h with bodyHash := blake3 (rs.flatMap Record.encode) }) hsealed hzero rfl hlen
  rw [hwalk { h with bodyHash := blake3 (rs.flatMap Record.encode) } rfl, err_bind]
    at hstructure
  exact hstructure

theorem payload_lt_modify {i : Nat} {f : Record → Record}
    (hf : ∀ r, (f r).payload = r.payload) (hlen : ∀ r ∈ rs, r.payload.length < 2 ^ 16) :
    ∀ r ∈ rs.modify i f, r.payload.length < 2 ^ 16 := by
  intro r hr
  obtain ⟨j, hj⟩ := List.mem_iff_getElem?.mp hr
  rw [List.getElem?_modify] at hj
  obtain ⟨q, hq, rfl⟩ := Option.map_eq_some_iff.mp hj
  have hqlen := hlen q (List.mem_of_getElem? hq)
  split
  · rwa [hf]
  · exact hqlen

theorem SealedSegment.hash_body (hs : SealedSegment blake3 segment rs) :
    blake3 (rs.flatMap Record.encode) = segment.header.bodyHash := by
  rw [← hs.body_hash, hs.body]

theorem validateStructure_otherState {hash : Bytes32} (hs : SealedSegment blake3 segment rs)
    (hne : hash ≠ segment.header.endStateHash) :
    validateStructure blake3 (DhilogSegment.ofParts
        { segment.header with endStateHash := hash } (rs.flatMap Record.encode)) =
      if hash = Bytes32.zero then .err (issueR4 "end_state_hash is zero")
      else .err (issueR4 "END end_state_hash != header end_state_hash") := by
  by_cases hz : hash = Bytes32.zero
  · rw [if_pos hz]
    exact validateStructure_of_header hs.isSealed (.inl ⟨hz, rfl⟩)
  · have hwalk : validateRecords { segment.header with endStateHash := hash } RecordWalk.start
        (rs.map framed) = .err (issueR4 "END end_state_hash != header end_state_hash") :=
      validateRecords_mismatch hs.grammar rfl hne.symm
    rw [if_neg hz, validateStructure_ofParts blake3
      (h := { segment.header with endStateHash := hash }) hs.isSealed hz hs.hash_body
      hs.grammar.payload_lt, hwalk, err_bind]

theorem validateStructure_otherBody {body : Bytes} (hs : SealedSegment blake3 segment rs)
    (hne : blake3 body ≠ blake3 (rs.flatMap Record.encode)) :
    validateStructure blake3 (DhilogSegment.ofParts segment.header body) =
      .err (issueR4 "body_hash mismatch over [256, EOF)") := by
  refine validateStructure_of_header hs.isSealed (.inr ⟨hs.hash_ne_zero, ?_, rfl⟩)
  rw [DhilogSegment.drop_ofParts]
  change _ ≠ segment.header.bodyHash
  rwa [← hs.hash_body]

theorem validateStructure_noEnd {h : DhilogHeader} (hs : SealedSegment blake3 segment rs)
    (hsealed : h.flags = segment.header.flags)
    (hstate : h.endStateHash = segment.header.endStateHash)
    (hicount : h.endIcount = segment.header.endIcount) :
    validateStructure blake3 (Corruption.rehashed blake3 h rs.dropLast) =
      .err (issueR4 "terminal END record missing") := by
  obtain ⟨init, last, rfl, -⟩ := hs.grammar.terminal
  have hicount' : { h with bodyHash := blake3 (init.flatMap Record.encode) }.endIcount =
      segment.header.endIcount := hicount
  obtain ⟨walk, hrun, hseen, -⟩ :=
    validateRecords_prefix (sealedGrammar_iff.mp hs.grammar).1 rfl hicount'
  have hstructure := validateStructure_ofParts blake3
    (h := { h with bodyHash := blake3 (init.flatMap Record.encode) })
    (by rw [hsealed]; exact hs.isSealed) (by rw [hstate]; exact hs.hash_ne_zero) rfl
    fun r hr => hs.grammar.payload_lt r (List.mem_append_left _ hr)
  rw [hrun, ok_bind, rejectIf_pos hseen, err_bind] at hstructure
  rw [List.dropLast_concat]
  exact hstructure

theorem validateStructure_gapSeq {index : Nat} (hs : SealedSegment blake3 segment rs)
    (hi : index < rs.length) (hseq : index + 1 < 2 ^ 32) :
    validateStructure blake3 (Corruption.rehashed blake3 segment.header
        (rs.modify index fun r => { r with seq := UInt32.ofNat (r.seq.toNat + 1) })) =
      .err (issueR5 ("seq " ++ toString (index + 1) ++ " at record index " ++ toString index
        ++ " (seq starts 0, step 1)")) := by
  have hr := List.getElem?_eq_getElem hi
  have hnumber := hs.grammar.seq index _ hr
  have hbumped : (UInt32.ofNat (index + 1)).toNat = index + 1 := UInt32.toNat_ofNat_of_lt' hseq
  have hlens := payload_lt_modify (i := index)
    (f := fun r => { r with seq := UInt32.ofNat (r.seq.toNat + 1) }) (fun _ => rfl)
    hs.grammar.payload_lt
  refine Corruption.validateStructure_rehashed hs.isSealed hs.hash_ne_zero hlens ?_
  intro h' hicount
  obtain ⟨walk, hseen, hcount, hw, hloop⟩ := validateRecords_set hs.grammar hr hicount
  have hgap : UInt32.ofNat (index + 1) ≠ UInt32.ofNat walk.count := by
    intro heq
    have hnat := congrArg UInt32.toNat heq
    rw [hbumped, hcount, UInt32.toNat_ofNat_of_lt' (Nat.lt_of_succ_lt hseq)] at hnat
    omega
  have hstep := validateRecord_gap (walksFrom_cons.mp hw).1 hseen
    (by rw [hcount]; omega) hgap hicount
  rw [modify_eq_set_of_getElem? _ hr, hloop, hnumber, hstep, err_bind, hbumped, hcount]

theorem validateStructure_pastEnd {index : Nat} {icount : UInt64}
    (hs : SealedSegment blake3 segment rs) (hi : index < rs.length)
    (hpast : segment.header.endIcount < icount) :
    validateStructure blake3 (Corruption.rehashed blake3 segment.header
        (rs.modify index fun r => { r with icount })) =
      .err (issueR5 ("record icount " ++ toString icount.toNat ++ " > end_icount "
        ++ toString segment.header.endIcount.toNat)) := by
  have hr := List.getElem?_eq_getElem hi
  have hlens := payload_lt_modify (i := index) (f := fun r => { r with icount }) (fun _ => rfl)
    hs.grammar.payload_lt
  refine Corruption.validateStructure_rehashed hs.isSealed hs.hash_ne_zero hlens ?_
  intro h' hicount
  obtain ⟨walk, hseen, -, hw, hloop⟩ := validateRecords_set hs.grammar hr hicount
  obtain ⟨hallowed, hseq, hprev, -⟩ := walksFrom_cons.mp hw
  rw [modify_eq_set_of_getElem? _ hr, hloop,
    validateRecord_pastEnd hallowed hseen hseq hprev hpast hicount, err_bind]

/-- The validator stops at what the helper did, and at nothing before. -/
theorem Corruption.validateStructure_made {c : Corruption}
    (hs : SealedSegment blake3 segment rs) (hd : c.Damages blake3 segment.header rs) :
    validateStructure blake3 (c.made blake3 segment.header rs) = c.verdict segment.header := by
  have hheader {h : DhilogHeader} (hs' : SealedSegment blake3
      (DhilogSegment.ofParts h (rs.flatMap Record.encode)) rs) :
      validateStructure blake3 (DhilogSegment.ofParts h (rs.flatMap Record.encode)) = .ok () :=
    (validateStructure_eq_ok _ _).mpr ⟨rs, hs'⟩
  cases c with
  | version v => exact hheader (hs.of_header rfl rfl rfl rfl rfl)
  | machineConfigHash hash => exact hheader (hs.of_header rfl rfl rfl rfl rfl)
  | clock num den => exact hheader (hs.of_header rfl rfl rfl rfl rfl)
  | baseSnapshotId id => exact hheader (hs.of_header rfl rfl rfl rfl rfl)
  | endStateHash hash => exact validateStructure_otherState hs hd
  | unsealed =>
      have hclear : segment.header.flags &&& ~~~1 &&& flagSealed = 0 := by
        rw [UInt32.and_assoc]
        exact UInt32.and_zero
      exact validateStructure_unsealed hclear
  | bodyByte => exact validateStructure_otherBody hs hd
  | missingEnd => exact validateStructure_noEnd hs rfl rfl rfl
  | seqGap index => exact validateStructure_gapSeq hs hd.1 hd.2
  | recordIcount index icount => exact validateStructure_pastEnd hs hd.1 hd.2

/-- A helper called on a sealed segment makes a segment, never a panic; the
validator stops at the very violation the helper is for, and passes those that
only a whole path shows. -/
theorem corrupt_trips {c : Corruption} (hs : SealedSegment blake3 segment rs)
    (hd : c.Damages blake3 segment.header rs) :
    ∃ segment' : DhilogSegment,
      (c.apply blake3 segment.bytes : Outcome Empty Bytes) = .ok segment'.bytes ∧
        validateStructure blake3 segment' = c.verdict segment.header :=
  ⟨_, Corruption.apply_eq hs hd, Corruption.validateStructure_made hs hd⟩

theorem corrupt_trips_bare :
    ∃ segment' : DhilogSegment,
      ((Corruption.seqGap 0).apply Blake3.hash
          (bareSegment Blake3.hash (Bytes32.fill 1) (Bytes32.fill 2)).bytes :
        Outcome Empty Bytes) = .ok segment'.bytes ∧
        validateStructure Blake3.hash segment' = (Corruption.seqGap 0).verdict
          (bareSegment Blake3.hash (Bytes32.fill 1) (Bytes32.fill 2)).header :=
  corrupt_trips (sealedSegment_bare Blake3.hash (Bytes32.fill 1) (Bytes32.fill 2))
    ⟨by decide, by decide⟩

end Trips

end ReplayRenderer
