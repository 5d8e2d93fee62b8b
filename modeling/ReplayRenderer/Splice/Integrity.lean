import ReplayRenderer.Splice.RoundTrip

/-!
A container cannot be cut, extended or changed in one byte and still be
accepted. An accepted file is the writer's, so it is enough to look at two
written files: the counts in the header and the lengths in the table pin the
length of the whole, which settles cuts and extensions without the hash; the
hash and the magic behind it settle the changed byte.
-/

namespace ReplayRenderer

open Lib Lib.Outcome

/-! ### A cut or extended file -/

section Length

variable {blake3 : Bytes → Bytes32} {serde : SerdeJson}

theorem SealedGrammar.length_le {h : DhilogHeader} {rs : List Record} (hg : SealedGrammar h rs) :
    rs.length ≤ 2 ^ 32 := by
  by_contra hlt
  have hi : 2 ^ 32 < rs.length := not_le.mp hlt
  have hseq := hg.seq (2 ^ 32) (rs.get ⟨2 ^ 32, hi⟩) (List.getElem?_eq_getElem hi)
  have hlt := (rs.get ⟨2 ^ 32, hi⟩).seq.toNat_lt
  omega

theorem length_flatMap_encode_le {rs : List Record} (h : ∀ r ∈ rs, r.payload.length ≤ 4096) :
    (rs.flatMap Record.encode).length ≤ rs.length * 4120 := by
  induction rs with
  | nil => simp
  | cons r rs ih =>
      have hr := h r (List.mem_cons_self ..)
      have hpad := pad8_lt r.payload.length
      have hmod := pad8_mod r.payload.length
      have hrest := ih fun q hq => h q (List.mem_cons_of_mem r hq)
      have h24 : recordHeaderLen = 24 := rfl
      rw [List.flatMap_cons, List.length_append, Record.length_encode, List.length_cons]
      omega

/-- A segment that the validator accepts is far shorter than its length field
can count. -/
theorem length_lt_of_validateStructure {segment : DhilogSegment}
    (h : validateStructure blake3 segment = .ok ()) : segment.bytes.length < 2 ^ 64 := by
  obtain ⟨rs, hs⟩ := (validateStructure_eq_ok blake3 segment).mp h
  have hbody := congrArg List.length hs.body
  have hlen := length_flatMap_encode_le fun r hr => (hs.grammar.allowed r hr).payload_le
  have hcount := hs.grammar.length_le
  have h256 : dhilogHeaderLen = 256 := rfl
  rw [List.length_drop] at hbody
  omega

theorem blobsLen_eq_of_tableBytes {segs segs' : List ContainerSegment}
    (hlt : ∀ seg ∈ segs, seg.blob.bytes.length < 2 ^ 64)
    (hlt' : ∀ seg ∈ segs', seg.blob.bytes.length < 2 ^ 64) :
    ∀ {off : Nat}, segs.length = segs'.length → tableBytes off segs = tableBytes off segs' →
      blobsLen segs = blobsLen segs' := by
  induction segs generalizing segs' with
  | nil =>
      intro off hcount _
      rw [List.length_eq_zero_iff.mp hcount.symm]
  | cons seg segs ih =>
      intro off hcount htable
      cases segs' with
      | nil => simp at hcount
      | cons seg' segs' =>
          obtain ⟨hentry, htable⟩ := List.append_inj htable (by simp)
          have hlenAt := (sitsAt_tableEntry.mp (sitsAt_self (tableEntry off seg))).2.2.2.2.2.2
          have hlenAt' := (sitsAt_tableEntry.mp (sitsAt_self (tableEntry off seg'))).2.2.2.2.2.2
          rw [hentry] at hlenAt
          have hlen : seg.blob.bytes.length = seg'.blob.bytes.length := by
            rw [← UInt64.toNat_ofNat_of_lt' (hlt seg (List.mem_cons_self ..)),
              hlenAt.le64_inj hlenAt',
              UInt64.toNat_ofNat_of_lt' (hlt' seg' (List.mem_cons_self ..))]
          rw [hlen] at htable
          rw [blobsLen_cons, blobsLen_cons, hlen,
            ih (fun q hq => hlt q (List.mem_cons_of_mem _ hq))
              (fun q hq => hlt' q (List.mem_cons_of_mem _ hq)) (by simpa using hcount) htable]

/-- The header and the table of a file determine how long it is. -/
theorem length_write_eq_of_cut {c c' : DilogContainer} (hv : c.Valid blake3 serde)
    (hv' : c'.Valid blake3 serde) (h : c.write blake3 serde <+: c'.write blake3 serde) :
    (c.write blake3 serde).length = (c'.write blake3 serde).length := by
  obtain ⟨hheader, -, -, htable, -⟩ := DilogContainer.sitsAt_body serde |>.mp
    ((c.sitsAt_write blake3 serde).1.of_cut h)
  obtain ⟨hheader', -, -, htable', -⟩ := DilogContainer.sitsAt_body serde |>.mp
    (c'.sitsAt_write blake3 serde).1
  obtain ⟨-, -, -, hcount, hmeta, -⟩ := sitsAt_headerFields.mp hheader
  obtain ⟨-, -, -, hcount', hmeta', -⟩ := sitsAt_headerFields.mp hheader'
  have hcountEq : c.segments.length = c'.segments.length := by
    rw [← UInt32.toNat_ofNat_of_lt' hv.count_lt, hcount.le32_inj hcount',
      UInt32.toNat_ofNat_of_lt' hv'.count_lt]
  have hmetaEq : (c.containerMeta.canonicalBytes serde).length =
      (c'.containerMeta.canonicalBytes serde).length := by
    rw [← UInt32.toNat_ofNat_of_lt' hv.meta_lt, hmeta.le32_inj hmeta',
      UInt32.toNat_ofNat_of_lt' hv'.meta_lt]
  have htableOff : c.tableOff serde = c'.tableOff serde := by
    rw [DilogContainer.tableOff, DilogContainer.tableOff, hmetaEq]
  have hblobsOff : c.blobsOff serde = c'.blobsOff serde := by
    rw [DilogContainer.blobsOff, DilogContainer.blobsOff, htableOff, hcountEq]
  rw [htableOff, hblobsOff] at htable
  have hblobs := blobsLen_eq_of_tableBytes
    (fun seg hseg => length_lt_of_validateStructure (hv.agrees seg hseg).structural)
    (fun seg hseg => length_lt_of_validateStructure (hv'.agrees seg hseg).structural) hcountEq
    (htable.unique htable' (by rw [length_tableBytes, length_tableBytes, hcountEq]))
  rw [DilogContainer.length_write, DilogContainer.length_write, DilogContainer.length_body,
    DilogContainer.length_body, hblobsOff, hblobs]

/-- Two accepted files, one a prefix of the other, are the same file. -/
theorem eq_of_read_cut {b b' : Bytes} {c c' : DilogContainer}
    (h : DilogContainer.read blake3 serde b = .ok c)
    (h' : DilogContainer.read blake3 serde b' = .ok c') (hcut : b <+: b') : b = b' := by
  obtain ⟨hv, rfl⟩ := DilogContainer.read_sound h
  obtain ⟨hv', rfl⟩ := DilogContainer.read_sound h'
  exact hcut.eq_of_length (length_write_eq_of_cut hv hv' hcut)

/-! ### A changed byte -/

theorem DilogContainer.take_write (blake3 : Bytes → Bytes32) (serde : SerdeJson)
    (c : DilogContainer) :
    (c.write blake3 serde).take ((c.write blake3 serde).length - footerLen) = c.body serde := by
  rw [DilogContainer.length_write, Nat.add_sub_cancel, DilogContainer.write_eq, List.take_left]

/-- A changed byte is in the body, where the hash sees it, or in the footer,
which the body determines. -/
theorem read_set_ne_ok {b : Bytes} {c : DilogContainer}
    (h : DilogContainer.read blake3 serde b = .ok c) {i : Nat} {v : UInt8} (hi : i < b.length)
    (hne : b[i]? ≠ some v)
    (hinj : Set.InjOn blake3 {b.take (b.length - footerLen),
      (b.set i v).take (b.length - footerLen)}) (c' : DilogContainer) :
    DilogContainer.read blake3 serde (b.set i v) ≠ .ok c' := by
  intro h'
  obtain ⟨-, hb⟩ := DilogContainer.read_sound h
  obtain ⟨-, hb'⟩ := DilogContainer.read_sound h'
  have hlen := c.length_write blake3 serde
  have hlen' := c'.length_write blake3 serde
  have hbody := c.take_write blake3 serde
  have hbody' := c'.take_write blake3 serde
  rw [← hb] at hlen hbody
  rw [← hb', List.length_set] at hlen' hbody'
  rw [hbody, hbody'] at hinj
  have hchanged : b.set i v ≠ b := by
    intro heq
    rw [← heq, List.getElem?_set_self hi] at hne
    exact hne rfl
  have hsame : c'.body serde = c.body serde := by
    by_cases hlt : i < (c.body serde).length
    · have hhash := (c.sitsAt_write blake3 serde).2.1
      have hhash' := (c'.sitsAt_write blake3 serde).2.1
      rw [← hb] at hhash
      rw [← hb', sitsAt_set_of_lt (by omega),
        show (c'.body serde).length = (c.body serde).length by omega] at hhash'
      exact hinj (by simp) (by simp) (Bytes32.ext (hhash'.unique hhash (by simp)))
    · rw [← hbody', ← hbody, List.take_set_of_le (by omega)]
  apply hchanged
  rw [hb', hb, DilogContainer.write_eq, DilogContainer.write_eq, hsame]

end Length

/-- An accepted file has no accepted proper prefix and no accepted proper
extension, and with one byte changed it is rejected. -/
theorem read_rejects_tampered (blake3 : Bytes → Bytes32) (serde : SerdeJson) {b : Bytes}
    {c : DilogContainer} (h : DilogContainer.read blake3 serde b = .ok c) :
    (∀ b', b' ≠ b → (b' <+: b ∨ b <+: b') → ∀ c', DilogContainer.read blake3 serde b' ≠ .ok c') ∧
      ∀ (i : Nat) (v : UInt8), i < b.length → b[i]? ≠ some v →
        Set.InjOn blake3 {b.take (b.length - footerLen),
          (b.set i v).take (b.length - footerLen)} →
        ∀ c', DilogContainer.read blake3 serde (b.set i v) ≠ .ok c' := by
  refine ⟨fun b' hne hcut c' h' => hne ?_, fun i v hi hne hinj c' =>
    read_set_ne_ok h hi hne hinj c'⟩
  rcases hcut with hshorter | hextended
  · exact eq_of_read_cut h' h hshorter
  · exact (eq_of_read_cut h h' hextended).symm

/-- The file is read, and with a byte of its segment changed it is not. -/
theorem read_rejects_tampered_bare :
    DilogContainer.read Blake3.hash bareSerde (bareContainer.write Blake3.hash bareSerde) =
        .ok bareContainer ∧
      (∀ b', b' ≠ bareContainer.write Blake3.hash bareSerde →
        (b' <+: bareContainer.write Blake3.hash bareSerde ∨
          bareContainer.write Blake3.hash bareSerde <+: b') →
        ∀ c', DilogContainer.read Blake3.hash bareSerde b' ≠ .ok c') ∧
      ∀ c', DilogContainer.read Blake3.hash bareSerde
        ((bareContainer.write Blake3.hash bareSerde).set 600 0xFF) ≠ .ok c' := by
  obtain ⟨hcut, hset⟩ := read_rejects_tampered Blake3.hash bareSerde read_bareFile
  refine ⟨read_bareFile, hcut, hset 600 0xFF ?_ (by decide +kernel) (Set.injOn_pair.mpr ?_)⟩
  · rw [bareFile_length]
    decide
  · intro heq
    have hne : Blake3.hash ((bareContainer.write Blake3.hash bareSerde).take
        ((bareContainer.write Blake3.hash bareSerde).length - footerLen)) ≠
        Blake3.hash (((bareContainer.write Blake3.hash bareSerde).set 600 0xFF).take
          ((bareContainer.write Blake3.hash bareSerde).length - footerLen)) := by
      decide +kernel
    exact absurd heq hne

end ReplayRenderer
