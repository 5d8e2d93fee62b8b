import ReplayRenderer.Lib.Outcome

/-!
Byte strings with fields at fixed offsets. A reader of a binary format
slices its input; a writer appends. The two meet in one relation,
`SitsAt b off s`: the bytes `s` stand in `b` from offset `off` on. Reading
a field at an offset succeeds exactly when the encoding of its value sits
there, and a concatenation sits somewhere exactly when its pieces sit one
after the other. A round trip and a canonicity proof are then the same
list of facts, read in the two directions.
-/

namespace Lib

abbrev Bytes := List UInt8

/-- `[u8; 32]`. -/
structure Bytes32 where
  bytes : Bytes
  length_bytes : bytes.length = 32
  deriving DecidableEq

attribute [simp] Bytes32.length_bytes

theorem Bytes32.ext {x y : Bytes32} (h : x.bytes = y.bytes) : x = y := by
  cases x
  cases y
  simpa using h

def Bytes32.zero : Bytes32 := ⟨List.replicate 32 0, by simp⟩

/-- `[b; 32]`. -/
def Bytes32.fill (b : UInt8) : Bytes32 := ⟨List.replicate 32 b, by simp⟩

/-- `slice.try_into().expect("32 bytes")`. -/
def Bytes32.ofSlice {ε : Type} (s : Bytes) : Outcome ε Bytes32 :=
  if h : s.length = 32 then .ok ⟨s, h⟩ else .panic

def zeros (n : Nat) : Bytes := List.replicate n 0

@[simp] theorem length_zeros (n : Nat) : (zeros n).length = n := by simp [zeros]

theorem any_ne_zero_eq_false {s : Bytes} :
    s.any (· ≠ 0) = false ↔ s = zeros s.length := by
  simp [zeros, List.eq_replicate_iff]

theorem all_eq_zero_iff {s : Bytes} : s.all (· = 0) = true ↔ s = zeros s.length := by
  simp [zeros, List.eq_replicate_iff]

def utf8 (s : String) : Bytes := s.toUTF8.data.toList

/-! ### Little-endian integers -/

/-- The `w` low bytes of `n`, least significant first. -/
def leBytes : Nat → Nat → Bytes
  | 0, _ => []
  | w + 1, n => UInt8.ofNat n :: leBytes w (n / 256)

def leNat : Bytes → Nat
  | [] => 0
  | b :: bs => b.toNat + 256 * leNat bs

@[simp] theorem length_leBytes (w n : Nat) : (leBytes w n).length = w := by
  induction w generalizing n with
  | zero => rfl
  | succ w ih => simp [leBytes, ih]

theorem leNat_lt (s : Bytes) : leNat s < 256 ^ s.length := by
  induction s with
  | nil => simp [leNat]
  | cons b bs ih =>
      have hb : b.toNat < 256 := b.toNat_lt
      simp only [leNat, List.length_cons, Nat.pow_succ]
      omega

theorem leNat_leBytes {w n : Nat} (h : n < 256 ^ w) : leNat (leBytes w n) = n := by
  induction w generalizing n with
  | zero =>
      obtain rfl : n = 0 := by simpa using h
      rfl
  | succ w ih =>
      have hdiv : n / 256 < 256 ^ w := by
        rw [Nat.pow_succ] at h
        omega
      simp only [leBytes, leNat, ih hdiv, UInt8.toNat_ofNat']
      omega

theorem leBytes_leNat (s : Bytes) : leBytes s.length (leNat s) = s := by
  induction s with
  | nil => rfl
  | cons b bs ih =>
      have hb : b.toNat < 256 := b.toNat_lt
      have hdiv : (b.toNat + 256 * leNat bs) / 256 = leNat bs := by omega
      have hmod : UInt8.ofNat (b.toNat + 256 * leNat bs) = b := by
        apply UInt8.toNat_inj.mp
        rw [UInt8.toNat_ofNat']
        omega
      simp only [List.length_cons, leNat, leBytes, hdiv, hmod, ih]

theorem leBytes_inj {w m n : Nat} (hm : m < 256 ^ w) (hn : n < 256 ^ w)
    (h : leBytes w m = leBytes w n) : m = n := by
  rw [← leNat_leBytes hm, h, leNat_leBytes hn]

def le16 (v : UInt16) : Bytes := leBytes 2 v.toNat
def le32 (v : UInt32) : Bytes := leBytes 4 v.toNat
def le64 (v : UInt64) : Bytes := leBytes 8 v.toNat

@[simp] theorem length_le16 (v : UInt16) : (le16 v).length = 2 := length_leBytes ..
@[simp] theorem length_le32 (v : UInt32) : (le32 v).length = 4 := length_leBytes ..
@[simp] theorem length_le64 (v : UInt64) : (le64 v).length = 8 := length_leBytes ..

/-! ### What stands at an offset -/

/-- `s` stands in `b` from offset `off` on. -/
def SitsAt (b : Bytes) (off : Nat) (s : Bytes) : Prop :=
  ∃ pre post, b = pre ++ s ++ post ∧ pre.length = off

theorem SitsAt.le_length {b s : Bytes} {off : Nat} (h : SitsAt b off s) :
    off + s.length ≤ b.length := by
  obtain ⟨pre, post, rfl, rfl⟩ := h
  simp only [List.length_append]
  omega

theorem sitsAt_iff {b s : Bytes} {off : Nat} :
    SitsAt b off s ↔ off + s.length ≤ b.length ∧ (b.drop off).take s.length = s := by
  constructor
  · intro h
    refine ⟨h.le_length, ?_⟩
    obtain ⟨pre, post, rfl, rfl⟩ := h
    simp
  · rintro ⟨hlen, hs⟩
    refine ⟨b.take off, (b.drop off).drop s.length, ?_, ?_⟩
    · calc
        b = b.take off ++ ((b.drop off).take s.length ++ (b.drop off).drop s.length) := by
          rw [List.take_append_drop, List.take_append_drop]
        _ = b.take off ++ s ++ (b.drop off).drop s.length := by
          rw [hs, List.append_assoc]
    · rw [List.length_take]
      omega

theorem sitsAt_append {b s t : Bytes} {off : Nat} :
    SitsAt b off (s ++ t) ↔ SitsAt b off s ∧ SitsAt b (off + s.length) t := by
  constructor
  · rintro ⟨pre, post, rfl, rfl⟩
    exact ⟨⟨pre, t ++ post, by simp, rfl⟩, ⟨pre ++ s, post, by simp, by simp⟩⟩
  · rw [sitsAt_iff, sitsAt_iff, sitsAt_iff]
    rintro ⟨⟨_, hs⟩, hlen, ht⟩
    refine ⟨by simp only [List.length_append]; omega, ?_⟩
    rw [List.length_append, List.take_add, hs, List.drop_drop, ht]

@[simp] theorem sitsAt_nil {b : Bytes} {off : Nat} :
    SitsAt b off [] ↔ off ≤ b.length := by
  simp [sitsAt_iff]

theorem sitsAt_self (b : Bytes) : SitsAt b 0 b := ⟨[], [], by simp, rfl⟩

theorem SitsAt.eq_of_length {b s : Bytes} (h : SitsAt b 0 s)
    (hlen : s.length = b.length) : b = s := by
  have hs := (sitsAt_iff.mp h).2
  rw [List.drop_zero, hlen, List.take_length] at hs
  exact hs

theorem SitsAt.of_cut {b b' s : Bytes} {off : Nat} (h : SitsAt b off s) (hb : b <+: b') :
    SitsAt b' off s := by
  obtain ⟨pre, post, rfl, hoff⟩ := h
  obtain ⟨t, rfl⟩ := hb
  exact ⟨pre, post ++ t, by simp, hoff⟩

/-- A byte changed before it does not matter to what stands at an offset. -/
theorem sitsAt_set_of_lt {b s : Bytes} {off i : Nat} {v : UInt8} (hi : i < off) :
    SitsAt (b.set i v) off s ↔ SitsAt b off s := by
  rw [sitsAt_iff, sitsAt_iff, List.length_set, List.drop_set_of_lt hi]

theorem SitsAt.unique {b s t : Bytes} {off : Nat} (hs : SitsAt b off s)
    (ht : SitsAt b off t) (hlen : s.length = t.length) : s = t := by
  rw [← (sitsAt_iff.mp hs).2, ← (sitsAt_iff.mp ht).2, hlen]

theorem SitsAt.le64_inj {b : Bytes} {off : Nat} {v w : UInt64} (hv : SitsAt b off (le64 v))
    (hw : SitsAt b off (le64 w)) : v = w :=
  UInt64.toNat_inj.mp (leBytes_inj v.toNat_lt w.toNat_lt (hv.unique hw (by simp)))

theorem SitsAt.le32_inj {b : Bytes} {off : Nat} {v w : UInt32} (hv : SitsAt b off (le32 v))
    (hw : SitsAt b off (le32 w)) : v = w :=
  UInt32.toNat_inj.mp (leBytes_inj v.toNat_lt w.toNat_lt (hv.unique hw (by simp)))

theorem SitsAt.byte_inj {b : Bytes} {off : Nat} {v w : UInt8} (hv : SitsAt b off [v])
    (hw : SitsAt b off [w]) : v = w :=
  List.head_eq_of_cons_eq (hv.unique hw rfl)

/-- A piece of a piece is a piece. -/
theorem SitsAt.trans {b e s : Bytes} {off k : Nat} (he : SitsAt b off e)
    (hs : SitsAt e k s) : SitsAt b (off + k) s := by
  obtain ⟨pre, post, rfl, rfl⟩ := hs
  exact (sitsAt_append.mp (sitsAt_append.mp he).1).2

theorem sitsAt_drop {b s : Bytes} {off k : Nat} (hoff : off ≤ b.length) :
    SitsAt (b.drop off) k s ↔ SitsAt b (off + k) s := by
  rw [sitsAt_iff, sitsAt_iff, List.length_drop, List.drop_drop]
  constructor
  · rintro ⟨hlen, hs⟩
    exact ⟨by omega, hs⟩
  · rintro ⟨hlen, hs⟩
    exact ⟨by omega, hs⟩

theorem exists_sitsAt (b : Bytes) (off n : Nat) (h : off + n ≤ b.length) :
    ∃ s, s.length = n ∧ SitsAt b off s := by
  refine ⟨(b.drop off).take n, ?_, ?_⟩
  · rw [List.length_take, List.length_drop]
    omega
  · exact sitsAt_iff.mpr ⟨by simp; omega, by simp⟩

theorem exists_sitsAt_leBytes (b : Bytes) (off w : Nat) (h : off + w ≤ b.length) :
    ∃ n, n < 256 ^ w ∧ SitsAt b off (leBytes w n) := by
  obtain ⟨s, rfl, hs⟩ := exists_sitsAt b off w h
  exact ⟨leNat s, leNat_lt s, by rwa [leBytes_leNat]⟩

theorem exists_sitsAt_le16 (b : Bytes) (off : Nat) (h : off + 2 ≤ b.length) :
    ∃ v : UInt16, SitsAt b off (le16 v) := by
  obtain ⟨n, hn, hsits⟩ := exists_sitsAt_leBytes b off 2 h
  refine ⟨UInt16.ofNat n, ?_⟩
  rwa [le16, UInt16.toNat_ofNat_of_lt' hn]

theorem exists_sitsAt_le32 (b : Bytes) (off : Nat) (h : off + 4 ≤ b.length) :
    ∃ v : UInt32, SitsAt b off (le32 v) := by
  obtain ⟨n, hn, hsits⟩ := exists_sitsAt_leBytes b off 4 h
  refine ⟨UInt32.ofNat n, ?_⟩
  rwa [le32, UInt32.toNat_ofNat_of_lt' hn]

theorem exists_sitsAt_le64 (b : Bytes) (off : Nat) (h : off + 8 ≤ b.length) :
    ∃ v : UInt64, SitsAt b off (le64 v) := by
  obtain ⟨n, hn, hsits⟩ := exists_sitsAt_leBytes b off 8 h
  refine ⟨UInt64.ofNat n, ?_⟩
  rwa [le64, UInt64.toNat_ofNat_of_lt' hn]

theorem exists_sitsAt_byte (b : Bytes) (off : Nat) (h : off + 1 ≤ b.length) :
    ∃ v, SitsAt b off [v] := by
  obtain ⟨s, hlen, hsits⟩ := exists_sitsAt b off 1 h
  obtain ⟨v, rfl⟩ := List.length_eq_one_iff.mp hlen
  exact ⟨v, hsits⟩

/-- What follows a string that sits somewhere. -/
theorem drop_eq_append_iff {b s t : Bytes} {off : Nat} (hoff : off ≤ b.length) :
    b.drop off = s ++ t ↔ SitsAt b off s ∧ b.drop (off + s.length) = t := by
  constructor
  · intro h
    refine ⟨⟨b.take off, t, ?_, ?_⟩, ?_⟩
    · rw [List.append_assoc, ← h, List.take_append_drop]
    · rw [List.length_take]
      omega
    · rw [← List.drop_drop, h, List.drop_left]
  · rintro ⟨hs, rfl⟩
    calc
      b.drop off = (b.drop off).take s.length ++ (b.drop off).drop s.length :=
        (List.take_append_drop ..).symm
      _ = s ++ b.drop (off + s.length) := by
        rw [(sitsAt_iff.mp hs).2, List.drop_drop]

theorem getElem?_eq_some_iff_sitsAt {b : Bytes} {i : Nat} {x : UInt8} :
    b[i]? = some x ↔ SitsAt b i [x] := by
  rw [sitsAt_iff, List.length_singleton, List.getElem?_eq_some_iff]
  constructor
  · rintro ⟨hi, hx⟩
    refine ⟨hi, ?_⟩
    rw [List.take_one, List.head?_drop, List.getElem?_eq_getElem hi, hx]
    rfl
  · rintro ⟨hi, hx⟩
    refine ⟨hi, ?_⟩
    rw [List.take_one, List.head?_drop, List.getElem?_eq_getElem hi] at hx
    exact List.head_eq_of_cons_eq hx

/-! ### Reading at an offset -/

section Readers

variable {ε : Type}

/-- `&b[i..j]`. -/
def slice (b : Bytes) (i j : Nat) : Outcome ε Bytes :=
  if i ≤ j ∧ j ≤ b.length then .ok ((b.drop i).take (j - i)) else .panic

theorem slice_eq_ok {b s : Bytes} {i j : Nat} :
    (slice b i j : Outcome ε Bytes) = .ok s ↔ SitsAt b i s ∧ j = i + s.length := by
  unfold slice
  split
  · rename_i h
    rw [Outcome.ok.injEq, sitsAt_iff]
    constructor
    · rintro rfl
      have hlen : ((b.drop i).take (j - i)).length = j - i := by
        simp
        omega
      rw [hlen]
      exact ⟨⟨by omega, rfl⟩, by omega⟩
    · rintro ⟨⟨_, hs⟩, rfl⟩
      rw [Nat.add_sub_cancel_left]
      exact hs
  · rename_i h
    simp only [reduceCtorEq, false_iff]
    rintro ⟨hs, rfl⟩
    exact h ⟨by omega, hs.le_length⟩

theorem slice_of_sitsAt {b s : Bytes} {i j : Nat} (h : SitsAt b i s)
    (hj : j = i + s.length) : (slice b i j : Outcome ε Bytes) = .ok s :=
  slice_eq_ok.mpr ⟨h, hj⟩

theorem slice_to_end {b : Bytes} {off : Nat} (hoff : off ≤ b.length) :
    (slice b off b.length : Outcome ε Bytes) = .ok (b.drop off) := by
  apply slice_of_sitsAt
  · exact (sitsAt_drop hoff).mp (sitsAt_self _)
  · rw [List.length_drop]
    omega

theorem exists_slice (b : Bytes) (i j : Nat) (hij : i ≤ j) (hj : j ≤ b.length) :
    ∃ s, (slice b i j : Outcome ε Bytes) = .ok s ∧ s.length = j - i := by
  refine ⟨_, if_pos ⟨hij, hj⟩, ?_⟩
  simp
  omega

theorem slice_take {b : Bytes} {i j n : Nat} (h : j ≤ n) :
    (slice (b.take n) i j : Outcome ε Bytes) = slice b i j := by
  have hrange : (i ≤ j ∧ j ≤ (b.take n).length) ↔ (i ≤ j ∧ j ≤ b.length) := by
    rw [List.length_take]
    omega
  have hbytes : ((b.take n).drop i).take (j - i) = (b.drop i).take (j - i) := by
    rw [List.drop_take, List.take_take, min_eq_left (Nat.sub_le_sub_right h i)]
  rw [slice, slice, hbytes]
  exact if_congr hrange rfl rfl

/-- `u16::from_le_bytes(b[off..off + 2])`. -/
def u16At (b : Bytes) (off : Nat) : Outcome ε UInt16 := do
  let s ← slice b off (off + 2)
  pure (UInt16.ofNat (leNat s))

def u32At (b : Bytes) (off : Nat) : Outcome ε UInt32 := do
  let s ← slice b off (off + 4)
  pure (UInt32.ofNat (leNat s))

def u64At (b : Bytes) (off : Nat) : Outcome ε UInt64 := do
  let s ← slice b off (off + 8)
  pure (UInt64.ofNat (leNat s))

/-- `<[u8; 32]>::try_from(&b[off..off + 32])`. -/
def bytes32At (b : Bytes) (off : Nat) : Outcome ε Bytes32 := do
  let s ← slice b off (off + 32)
  Bytes32.ofSlice s

/-- Reading an integer succeeds exactly when its encoding sits at the
offset. The three widths share this argument. -/
theorem intAt_eq_ok {α : Type} {w : Nat} {ofNat : Nat → α} {toNat : α → Nat}
    (hlt : ∀ v, toNat v < 256 ^ w) (hto : ∀ n, n < 256 ^ w → toNat (ofNat n) = n)
    (hof : ∀ v, ofNat (toNat v) = v) {b : Bytes} {off : Nat} {v : α} :
    (do let s ← slice b off (off + w); pure (ofNat (leNat s)) : Outcome ε α) = .ok v ↔
      SitsAt b off (leBytes w (toNat v)) := by
  simp only [Outcome.bind_eq_ok, slice_eq_ok, Outcome.pure_eq, Outcome.ok.injEq]
  constructor
  · rintro ⟨s, ⟨hs, hlen⟩, rfl⟩
    obtain rfl : s.length = w := by omega
    rw [hto _ (leNat_lt s), leBytes_leNat]
    exact hs
  · intro h
    refine ⟨_, ⟨h, by simp⟩, ?_⟩
    rw [leNat_leBytes (hlt v), hof]

@[simp] theorem u16At_eq_ok {b : Bytes} {off : Nat} {v : UInt16} :
    (u16At b off : Outcome ε UInt16) = .ok v ↔ SitsAt b off (le16 v) :=
  intAt_eq_ok (fun v => v.toNat_lt)
    (fun _ h => UInt16.toNat_ofNat_of_lt' h) (fun _ => UInt16.ofNat_toNat)

@[simp] theorem u32At_eq_ok {b : Bytes} {off : Nat} {v : UInt32} :
    (u32At b off : Outcome ε UInt32) = .ok v ↔ SitsAt b off (le32 v) :=
  intAt_eq_ok (fun v => v.toNat_lt)
    (fun _ h => UInt32.toNat_ofNat_of_lt' h) (fun _ => UInt32.ofNat_toNat)

@[simp] theorem u64At_eq_ok {b : Bytes} {off : Nat} {v : UInt64} :
    (u64At b off : Outcome ε UInt64) = .ok v ↔ SitsAt b off (le64 v) :=
  intAt_eq_ok (fun v => v.toNat_lt)
    (fun _ h => UInt64.toNat_ofNat_of_lt' h) (fun _ => UInt64.ofNat_toNat)

@[simp] theorem bytes32At_eq_ok {b : Bytes} {off : Nat} {v : Bytes32} :
    (bytes32At b off : Outcome ε Bytes32) = .ok v ↔ SitsAt b off v.bytes := by
  simp only [bytes32At, Outcome.bind_eq_ok, slice_eq_ok, Bytes32.ofSlice]
  constructor
  · rintro ⟨s, ⟨hs, -⟩, hv⟩
    split at hv
    · obtain rfl := Outcome.ok.inj hv
      exact hs
    · cases hv
  · intro h
    exact ⟨v.bytes, ⟨h, by simp⟩, by simp⟩

/-! A read has no error of its own. -/

@[simp] theorem slice_ne_err {b : Bytes} {i j : Nat} {e : ε} :
    (slice b i j : Outcome ε Bytes) ≠ .err e := by
  unfold slice
  split <;> simp

@[simp] theorem u64At_ne_err {b : Bytes} {off : Nat} {e : ε} :
    (u64At b off : Outcome ε UInt64) ≠ .err e :=
  Outcome.bind_ne_err slice_ne_err fun _ => nofun

@[simp] theorem bytes32At_ne_err {b : Bytes} {off : Nat} {e : ε} :
    (bytes32At b off : Outcome ε Bytes32) ≠ .err e := by
  refine Outcome.bind_ne_err slice_ne_err fun s => ?_
  unfold Bytes32.ofSlice
  split <;> simp

end Readers

/-! A read in range does not panic. -/

section Safe

variable {ε β : Type} {b : Bytes} {off : Nat}

theorem SafeAs.slice {i j : Nat} {f g : Bytes → Outcome ε β} (hij : i ≤ j) (hj : j ≤ b.length)
    (h : ∀ s, SitsAt b i s → s.length = j - i → SafeAs (f s) (g s)) :
    SafeAs (slice b i j >>= f) (slice b i j >>= g) := by
  obtain ⟨s, hlen, hs⟩ := exists_sitsAt b i (j - i) (by omega)
  rw [slice_of_sitsAt hs (by omega), Outcome.ok_bind, Outcome.ok_bind]
  exact h s hs hlen

theorem SafeAs.u16At {f g : UInt16 → Outcome ε β} (hoff : off + 2 ≤ b.length)
    (h : ∀ v, SafeAs (f v) (g v)) : SafeAs (u16At b off >>= f) (u16At b off >>= g) := by
  obtain ⟨v, hv⟩ := exists_sitsAt_le16 b off hoff
  rw [u16At_eq_ok.mpr hv, Outcome.ok_bind, Outcome.ok_bind]
  exact h v

theorem SafeAs.u32At {f g : UInt32 → Outcome ε β} (hoff : off + 4 ≤ b.length)
    (h : ∀ v, SafeAs (f v) (g v)) : SafeAs (u32At b off >>= f) (u32At b off >>= g) := by
  obtain ⟨v, hv⟩ := exists_sitsAt_le32 b off hoff
  rw [u32At_eq_ok.mpr hv, Outcome.ok_bind, Outcome.ok_bind]
  exact h v

theorem SafeAs.u64At {f g : UInt64 → Outcome ε β} (hoff : off + 8 ≤ b.length)
    (h : ∀ v, SafeAs (f v) (g v)) : SafeAs (u64At b off >>= f) (u64At b off >>= g) := by
  obtain ⟨v, hv⟩ := exists_sitsAt_le64 b off hoff
  rw [u64At_eq_ok.mpr hv, Outcome.ok_bind, Outcome.ok_bind]
  exact h v

theorem SafeAs.bytes32At {f g : Bytes32 → Outcome ε β} (hoff : off + 32 ≤ b.length)
    (h : ∀ v, SafeAs (f v) (g v)) : SafeAs (bytes32At b off >>= f) (bytes32At b off >>= g) := by
  obtain ⟨s, hlen, hs⟩ := exists_sitsAt b off 32 hoff
  have hv : SitsAt b off (⟨s, hlen⟩ : Bytes32).bytes := hs
  rw [bytes32At_eq_ok.mpr hv, Outcome.ok_bind, Outcome.ok_bind]
  exact h _

theorem SafeAs.byteAt {f g : UInt8 → Outcome ε β} (hoff : off < b.length)
    (h : ∀ v, SafeAs (f v) (g v)) :
    SafeAs (Outcome.expect b[off]? >>= f) (Outcome.expect b[off]? >>= g) :=
  SafeAs.expect (List.getElem?_eq_getElem hoff) (h _)

end Safe

/-! ### Writing at an offset -/

/-- `out[off..off + s.len()].copy_from_slice(s)`. -/
def copyAt (out : Bytes) (off : Nat) (s : Bytes) : Bytes :=
  out.take off ++ s ++ out.drop (off + s.length)

/-- Filling zeroed bytes from the front is appending. -/
theorem copyAt_append_zeros {pre s : Bytes} {off n : Nat} (hoff : pre.length = off) :
    copyAt (pre ++ zeros n) off s = (pre ++ s) ++ zeros (n - s.length) := by
  subst hoff
  rw [copyAt, List.take_left, List.append_assoc, List.drop_append]
  simp [zeros]

/-! ### Padding -/

/-- `(len + 7) & !7`: the next multiple of eight. -/
def pad8 (len : Nat) : Nat := (len + 7) / 8 * 8

theorem le_pad8 (len : Nat) : len ≤ pad8 len := by
  unfold pad8
  omega

theorem pad8_lt (len : Nat) : pad8 len < len + 8 := by
  unfold pad8
  omega

theorem pad8_mod (len : Nat) : pad8 len % 8 = 0 := by
  unfold pad8
  omega

/-- Padding a length that starts on a boundary and padding an end position
are the same thing. -/
theorem pad8_add {off len : Nat} (h : off % 8 = 0) :
    pad8 (off + len) = off + pad8 len := by
  unfold pad8
  omega

/-- `v.resize(n, 0)`. -/
def resize (v : Bytes) (n : Nat) : Bytes := v.take n ++ zeros (n - v.length)

theorem resize_of_le {v : Bytes} {n : Nat} (h : v.length ≤ n) :
    resize v n = v ++ zeros (n - v.length) := by
  rw [resize, List.take_of_length_le h]

end Lib
