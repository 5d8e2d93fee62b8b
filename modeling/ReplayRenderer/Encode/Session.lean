import ReplayRenderer.Lib.Bytes
import ReplayRenderer.Lib.Process

/-!
The ffmpeg child and the parent that feeds it. The two sides share nothing but
pipes of a bounded size: raw frames go in on stdin, the log comes out on stderr
and, in the capturing variant, decoded frames on stdout. The parent writes and
reads in tasks of their own, so every order of their steps and the child's is a
run; a pipe end is open as long as its holder has it.

The child is a program over single bytes: what it does depends on the bytes it
reads and not on how they were cut. Spawning it and failures of the system other
than a broken pipe are not modelled.
-/

namespace ReplayRenderer

open Lib

inductive ExitStatus where
  | exited (code : Nat)
  | signaled (signal : Nat)
  deriving DecidableEq, Repr

def ExitStatus.success (status : ExitStatus) : Bool := status = .exited 0

def sigkill : Nat := 9

inductive EncodeError where
  | spawn (bin source : String)
  | childDied (stderrTail : String)
  | nonZeroExit (status : ExitStatus) (stderrTail : String)
  | io (source : String)
  | gifRangeExceeded (frameCount : UInt64) (maxFrames : UInt32)
  deriving DecidableEq, Repr

def stderrTailBytes : Nat := 4096

def tailStr (fromUtf8Lossy : Bytes → String) (buf : Bytes) : String :=
  fromUtf8Lossy (buf.drop (buf.length - stderrTailBytes))

/-! ### The system -/

/-- What the parent wants of the child: its work only, or its stdout too. -/
inductive Purpose where
  | encode | capture
  deriving DecidableEq, Repr

/-- The task that writes the frames: those left, or whether all was written. It
holds the write end of stdin until it is done. -/
inductive Writer where
  | writing (frames : List Bytes)
  | wrote (ok : Bool)
  deriving DecidableEq, Repr

/-- The child. While it runs it holds the write ends of stdout and stderr, and
the read end of stdin unless it closed that. -/
inductive Child (κ : Type) where
  | running (c : κ) (stdin : Bool)
  | ended (status : ExitStatus)
  | killed
  deriving DecidableEq, Repr

/-- A pipe that the parent reads to its end: what is in it, what was read, and
whether the end was seen. -/
structure Drain where
  buf : Bytes
  got : Bytes
  done : Bool
  deriving DecidableEq, Repr

structure Session (κ : Type) where
  child : Child κ
  writer : Writer
  stdin : Bytes
  stdout : Drain
  stderr : Drain
  deriving DecidableEq, Repr

abbrev ChildProgram (κ : Type) := κ → Act κ UInt8 ExitStatus

def Child.isRunning {κ : Type} : Child κ → Bool
  | .running _ _ => true
  | _ => false

def Child.reads {κ : Type} : Child κ → Bool
  | .running _ stdin => stdin
  | _ => false

def Child.status {κ : Type} : Child κ → Option ExitStatus
  | .running _ _ => none
  | .ended status => some status
  | .killed => some (.signaled sigkill)

def Writer.isWriting : Writer → Bool
  | .writing _ => true
  | .wrote _ => false

def Writer.pending : Writer → Bytes
  | .writing frames => frames.flatten
  | .wrote _ => []

def Drain.empty : Drain := ⟨[], [], false⟩

/-- `Stdio::null()`: nothing to read. -/
def Drain.null : Drain := ⟨[], [], true⟩

def Drain.push (d : Drain) (a : UInt8) : Drain := { d with buf := d.buf ++ [a] }

def Drain.take (d : Drain) (n : Nat) : Drain :=
  { d with buf := d.buf.drop n, got := d.got ++ d.buf.take n }

def Drain.finish (d : Drain) : Drain := { d with done := true }

def Drain.held (d : Drain) : Bytes := d.got ++ d.buf

section Steps

variable {κ : Type} (purpose : Purpose) (next : ChildProgram κ) (cap : Nat)

/-- A step of the parent: of the task that writes, of one that reads, or the
kill that follows a failed write of an encode. -/
inductive ParentStep : Session κ → Session κ → Prop where
  | nextFrame {s : Session κ} {frames : List Bytes} : s.writer = .writing ([] :: frames) →
      ParentStep s { s with writer := .writing frames }
  | push {s : Session κ} {frame : Bytes} {frames : List Bytes} {n : Nat} :
      s.writer = .writing (frame :: frames) → s.child.reads = true → 0 < n →
      n ≤ frame.length → s.stdin.length + n ≤ cap →
      ParentStep s { s with
        writer := .writing (frame.drop n :: frames), stdin := s.stdin ++ frame.take n }
  | broken {s : Session κ} {frame : Bytes} {frames : List Bytes} :
      s.writer = .writing (frame :: frames) → s.child.reads = false → frame ≠ [] →
      ParentStep s { s with writer := .wrote false }
  | close {s : Session κ} : s.writer = .writing [] → ParentStep s { s with writer := .wrote true }
  | kill {s : Session κ} : purpose = .encode → s.writer = .wrote false →
      s.child.isRunning = true → ParentStep s { s with child := .killed }
  | readOut {s : Session κ} {n : Nat} : s.stdout.done = false → 0 < n →
      n ≤ s.stdout.buf.length → ParentStep s { s with stdout := s.stdout.take n }
  | endOut {s : Session κ} : s.stdout.done = false → s.stdout.buf = [] →
      s.child.isRunning = false → ParentStep s { s with stdout := s.stdout.finish }
  | readErr {s : Session κ} {n : Nat} : s.stderr.done = false → 0 < n →
      n ≤ s.stderr.buf.length → ParentStep s { s with stderr := s.stderr.take n }
  | endErr {s : Session κ} : s.stderr.done = false → s.stderr.buf = [] →
      s.child.isRunning = false → ParentStep s { s with stderr := s.stderr.finish }

/-- A step of the child. It waits for input while stdin is open and empty, and
for room while a pipe is full; stdout is a pipe only when it is captured. -/
inductive ChildStep : Session κ → Session κ → Prop where
  | read {s : Session κ} {c : κ} {k : Option UInt8 → κ} {a : UInt8} {as : Bytes} :
      s.child = .running c true → next c = .read k → s.stdin = a :: as →
      ChildStep s { s with child := .running (k (some a)) true, stdin := as }
  | readEnd {s : Session κ} {c : κ} {k : Option UInt8 → κ} : s.child = .running c true →
      next c = .read k → s.stdin = [] → s.writer.isWriting = false →
      ChildStep s { s with child := .running (k none) true }
  | readClosed {s : Session κ} {c : κ} {k : Option UInt8 → κ} : s.child = .running c false →
      next c = .read k → ChildStep s { s with child := .running (k none) false }
  | closeIn {s : Session κ} {c c' : κ} {i : Bool} : s.child = .running c i →
      next c = .closeIn c' → ChildStep s { s with child := .running c' false }
  | out {s : Session κ} {c c' : κ} {i : Bool} {a : UInt8} : purpose = .capture →
      s.child = .running c i → next c = .out a c' → s.stdout.buf.length < cap →
      ChildStep s { s with child := .running c' i, stdout := s.stdout.push a }
  | outNull {s : Session κ} {c c' : κ} {i : Bool} {a : UInt8} : purpose = .encode →
      s.child = .running c i → next c = .out a c' → ChildStep s { s with child := .running c' i }
  | log {s : Session κ} {c c' : κ} {i : Bool} {a : UInt8} : s.child = .running c i →
      next c = .log a c' → s.stderr.buf.length < cap →
      ChildStep s { s with child := .running c' i, stderr := s.stderr.push a }
  | exit {s : Session κ} {c : κ} {i : Bool} {status : ExitStatus} : s.child = .running c i →
      next c = .exit status → ChildStep s { s with child := .ended status }

def SessionStep (s t : Session κ) : Prop :=
  ParentStep purpose cap s t ∨ ChildStep purpose next cap s t

end Steps

def runWithFrames {κ : Type} (c : κ) (frames : List Bytes) : Session κ where
  child := .running c true
  writer := .writing frames
  stdin := []
  stdout := .null
  stderr := .empty

/-- `run_capture_stdout`, once the child is spawned; with no frames stdin is
null, which ends at once. -/
def runCaptureStdout {κ : Type} (c : κ) (stdinFrames : List Bytes) : Session κ where
  child := .running c true
  writer := if stdinFrames.isEmpty then .wrote true else .writing stdinFrames
  stdin := []
  stdout := .empty
  stderr := .empty

section Results

variable {κ : Type} (fromUtf8Lossy : Bytes → String)

/-- What `run_with_frames` returns: a failed write is reported as such, whatever
the status. -/
def encodeResult (status : ExitStatus) (wrote : Bool) (err : Bytes) : Except EncodeError Unit :=
  if wrote = false then .error (.childDied (tailStr fromUtf8Lossy err))
  else if status.success = false then
    .error (.nonZeroExit status (tailStr fromUtf8Lossy err))
  else .ok ()

structure Session.Joined (s : Session κ) (status : ExitStatus) (wrote : Bool) : Prop where
  status_eq : s.child.status = some status
  writer_eq : s.writer = .wrote wrote
  stdout_done : s.stdout.done = true
  stderr_done : s.stderr.done = true

end Results

def Purpose.start {κ : Type} (purpose : Purpose) (c : κ) (frames : List Bytes) : Session κ :=
  match purpose with
  | .encode => runWithFrames c frames
  | .capture => runCaptureStdout c frames

/-! ### No deadlock -/

section Progress

variable {κ : Type} {purpose : Purpose} {next : ChildProgram κ} {cap : Nat} {s t : Session κ}

/-- A running child is still listened to, and a pipe that was read to its end is
empty. -/
structure Session.Wired (purpose : Purpose) (s : Session κ) : Prop where
  out_open : purpose = .capture → s.child.isRunning = true → s.stdout.done = false
  err_open : s.child.isRunning = true → s.stderr.done = false
  out_drained : s.stdout.done = true → s.stdout.buf = []
  err_drained : s.stderr.done = true → s.stderr.buf = []

theorem wired_start (purpose : Purpose) (c : κ) (frames : List Bytes) :
    (purpose.start c frames).Wired purpose := by
  cases purpose with
  | encode => exact ⟨by simp, fun _ => rfl, fun _ => rfl, fun _ => rfl⟩
  | capture => exact ⟨fun _ _ => rfl, fun _ => rfl, fun _ => rfl, fun _ => rfl⟩

theorem ParentStep.wired (h : ParentStep purpose cap s t) (hs : s.Wired purpose) :
    t.Wired purpose := by
  obtain ⟨hout, herr, hout', herr'⟩ := hs
  cases h with
  | kill => exact ⟨by simp [Child.isRunning], by simp [Child.isRunning], hout', herr'⟩
  | readOut hdone => exact ⟨hout, herr, by simp [Drain.take, hdone], herr'⟩
  | readErr hdone => exact ⟨hout, herr, hout', by simp [Drain.take, hdone]⟩
  | endOut _ hbuf hchild => exact ⟨by simp [hchild], herr, fun _ => hbuf, herr'⟩
  | endErr _ hbuf hchild => exact ⟨hout, by simp [hchild], hout', fun _ => hbuf⟩
  | _ => exact ⟨hout, herr, hout', herr'⟩

theorem ChildStep.wired (h : ChildStep purpose next cap s t) (hs : s.Wired purpose) :
    t.Wired purpose := by
  obtain ⟨hout, herr, hout', herr'⟩ := hs
  cases h <;> constructor <;> simp_all [Child.isRunning, Drain.push]

theorem SessionStep.wired (h : SessionStep purpose next cap s t) (hs : s.Wired purpose) :
    t.Wired purpose :=
  h.elim (fun h => h.wired hs) fun h => h.wired hs

theorem run_wired (purpose : Purpose) {c : κ} {frames : List Bytes} {n : Nat}
    (hrun : Run (SessionStep purpose next cap) n (purpose.start c frames) s) : s.Wired purpose :=
  hrun.invariant (fun _ _ hs h => h.wired hs) (wired_start purpose c frames)

end Progress

inductive CatState where
  | ready
  | got (a : UInt8)
  | finished
  deriving DecidableEq, Repr

def CatState.answered : Option UInt8 → CatState
  | some a => .got a
  | none => .finished

def cat : ChildProgram CatState
  | .ready => .read CatState.answered
  | .got a => .out a .ready
  | .finished => .exit (.exited 0)

theorem behaves_cat (as : Bytes) :
    Behaves cat .ready (some as) (2 * as.length + 2) ⟨as, [], [], .exited 0⟩ := by
  induction as with
  | nil => exact .readEnd rfl (.exit rfl)
  | cons a as ih =>
      have hgot : Behaves cat (.got a) (some as) (2 * as.length + 2 + 1)
          ⟨a :: as, [], [], .exited 0⟩ := @Behaves.out _ _ _ cat (.got a) .ready _ a _ _ rfl ih
      exact .read (k := CatState.answered) rfl hgot

section Outcome

variable {κ : Type} {purpose : Purpose} {next : ChildProgram κ} {cap : Nat} {s t : Session κ}
  {total : Behaviour UInt8 ExitStatus} {n : Nat}

/-- What the parent has seen of the child, and what the child will still
write. -/
structure Session.Shown (purpose : Purpose) (total : Behaviour UInt8 ExitStatus) (s : Session κ)
    (out log : Bytes) : Prop where
  out_eq : purpose = .capture → s.stdout.held ++ out = total.out
  log_eq : s.stderr.held ++ log = total.log

/-- The child is `n` steps before the end of the behaviour it has alone on all
that the parent writes: what is in the pipe and what is still to come are its
input. -/
inductive Session.Follows (purpose : Purpose) (next : ChildProgram κ)
    (total : Behaviour UInt8 ExitStatus) (s : Session κ) : Nat → Prop where
  | running {c : κ} {i : Bool} {n : Nat} {b : Behaviour UInt8 ExitStatus} :
      s.child = .running c i →
      Behaves next c (if i = true then some (s.stdin ++ s.writer.pending) else none) n b →
      s.Shown purpose total b.out b.log → b.status = total.status →
      (i = true → b.unread = total.unread) → s.Follows purpose next total n
  | ended : s.child = .ended total.status → s.Shown purpose total [] [] →
      s.Follows purpose next total 0
  | killed : s.child = .killed → purpose = .encode → s.writer = .wrote false →
      s.stderr.held <+: total.log → s.Follows purpose next total 0

/-- Only a child that gave up its input early can break a write. -/
structure Session.Heard (total : Behaviour UInt8 ExitStatus) (s : Session κ) : Prop where
  reading : s.child.reads = true → s.writer ≠ .wrote false
  unread : s.child.reads = false → s.writer.pending <:+ total.unread
  broken : s.writer = .wrote false → total.unread ≠ []

def Writer.weight : Writer → Nat
  | .writing frames => (frames.map fun frame => frame.length + 1).sum + 1
  | .wrote _ => 0

def Drain.weight (d : Drain) : Nat := d.buf.length + (!d.done).toNat

/-- What a session with `n` steps of the child to go can still cost. -/
def Session.weight (s : Session κ) (n : Nat) : Nat :=
  2 * n + s.writer.weight + s.stdout.weight + s.stderr.weight

@[simp] theorem Drain.held_take (d : Drain) (n : Nat) : (d.take n).held = d.held := by
  simp [Drain.take, Drain.held]

@[simp] theorem Drain.held_finish (d : Drain) : d.finish.held = d.held := rfl

@[simp] theorem Drain.held_push (d : Drain) (a : UInt8) : (d.push a).held = d.held ++ [a] := by
  simp [Drain.push, Drain.held]

theorem Drain.weight_take {d : Drain} {n : Nat} (hpos : 0 < n) (hn : n ≤ d.buf.length) :
    (d.take n).weight < d.weight := by
  simp only [Drain.weight, Drain.take, List.length_drop]
  omega

theorem Drain.weight_finish {d : Drain} (hdone : d.done = false) :
    d.finish.weight < d.weight := by
  simp [Drain.weight, Drain.finish, hdone]

@[simp] theorem Drain.weight_push (d : Drain) (a : UInt8) : (d.push a).weight = d.weight + 1 := by
  simp only [Drain.weight, Drain.push, List.length_append, List.length_singleton]
  omega

theorem Session.Follows.congr (h : s.Follows purpose next total n) (hchild : t.child = s.child)
    (hinput : t.stdin ++ t.writer.pending = s.stdin ++ s.writer.pending ∨ s.child.reads = false)
    (hbroken : s.writer = .wrote false → t.writer = .wrote false)
    (hout : t.stdout.held = s.stdout.held) (herr : t.stderr.held = s.stderr.held) :
    t.Follows purpose next total n := by
  cases h with
  | ended hended hshown =>
      exact .ended (hchild.trans hended) ⟨by simpa [hout] using hshown.out_eq,
        by simpa [herr] using hshown.log_eq⟩
  | killed hkilled hpurpose hwriter hprefix =>
      exact .killed (hchild.trans hkilled) hpurpose (hbroken hwriter) (herr ▸ hprefix)
  | running hrunning hbehaves hshown hstatus hunread =>
      refine .running (hchild.trans hrunning) ?_ ⟨by simpa [hout] using hshown.out_eq,
        by simpa [herr] using hshown.log_eq⟩ hstatus hunread
      rcases hinput with hsame | hclosed
      · rwa [hsame]
      · rw [hrunning, Child.reads] at hclosed
        simpa [hclosed] using hbehaves

theorem ParentStep.follows (h : ParentStep purpose cap s t) (hs : s.Follows purpose next total n)
    (hheard : s.Heard total) :
    ∃ m, t.Follows purpose next total m ∧ t.Heard total ∧ t.weight m < s.weight n := by
  obtain ⟨hreading, hunread, hbroken⟩ := hheard
  cases h with
  | nextFrame hw =>
      refine ⟨n, hs.congr rfl (.inl ?_) (by simp [hw]) rfl rfl, ⟨by simp, ?_, by simp⟩, ?_⟩
      · simp [hw, Writer.pending]
      · simpa [hw, Writer.pending] using hunread
      · simp [Session.weight, Writer.weight, hw]
  | push hw hreads hpos hn hroom =>
      refine ⟨n, hs.congr rfl (.inl ?_) (by simp [hw]) rfl rfl, ⟨by simp, ?_, by simp⟩, ?_⟩
      · simp only [hw, Writer.pending, List.flatten_cons, List.append_assoc]
        rw [← List.append_assoc (List.take _ _), List.take_append_drop]
      · simp [hreads]
      · simp only [Session.weight, Writer.weight, hw, List.map_cons, List.sum_cons,
          List.length_drop]
        omega
  | @broken frame frames hw hreads hne =>
      -- nobody reads, so what is still to be written is input that the child leaves
      have hsuffix := hunread hreads
      rw [hw, Writer.pending, List.flatten_cons] at hsuffix
      have hleft : total.unread ≠ [] := by
        intro hnil
        rw [hnil, List.suffix_nil, List.append_eq_nil_iff] at hsuffix
        exact hne hsuffix.1
      refine ⟨n, hs.congr rfl (.inr hreads) (by simp) rfl rfl, ⟨by simp [hreads], ?_, ?_⟩, ?_⟩
      · simp [Writer.pending]
      · exact fun _ => hleft
      · simp [Session.weight, Writer.weight, hw]
  | close hw =>
      refine ⟨n, hs.congr rfl (.inl ?_) (by simp [hw]) rfl rfl, ⟨by simp, ?_, by simp⟩, ?_⟩
      · simp [hw, Writer.pending]
      · simp [Writer.pending]
      · simp [Session.weight, Writer.weight, hw]
  | kill hpurpose hw hrunning =>
      -- only a child that is still running has steps left to drop
      cases hs with
      | ended hchild => simp [hchild, Child.isRunning] at hrunning
      | killed hchild => simp [hchild, Child.isRunning] at hrunning
      | running hchild hbehaves hshown =>
          refine ⟨0, .killed rfl hpurpose hw ⟨_, hshown.log_eq⟩,
            ⟨by simp [Child.reads], ?_, hbroken⟩, ?_⟩
          · simp [hw, Writer.pending]
          · have hsteps := hbehaves.pos
            simp only [Session.weight]
            omega
  | readOut hdone hpos hn =>
      have hless := Drain.weight_take hpos hn
      refine ⟨n, hs.congr rfl (.inl rfl) id (by simp) rfl, ⟨hreading, hunread, hbroken⟩, ?_⟩
      simp only [Session.weight]
      omega
  | endOut hdone =>
      have hless := Drain.weight_finish hdone
      refine ⟨n, hs.congr rfl (.inl rfl) id (by simp) rfl, ⟨hreading, hunread, hbroken⟩, ?_⟩
      simp only [Session.weight]
      omega
  | readErr hdone hpos hn =>
      have hless := Drain.weight_take hpos hn
      refine ⟨n, hs.congr rfl (.inl rfl) id rfl (by simp), ⟨hreading, hunread, hbroken⟩, ?_⟩
      simp only [Session.weight]
      omega
  | endErr hdone =>
      have hless := Drain.weight_finish hdone
      refine ⟨n, hs.congr rfl (.inl rfl) id rfl (by simp), ⟨hreading, hunread, hbroken⟩, ?_⟩
      simp only [Session.weight]
      omega

/-- A running child is somewhere in the behaviour it has alone. -/
theorem Session.Follows.of_running (h : s.Follows purpose next total n) {c : κ} {i : Bool}
    (hchild : s.child = .running c i) :
    ∃ b, Behaves next c (if i = true then some (s.stdin ++ s.writer.pending) else none) n b ∧
      s.Shown purpose total b.out b.log ∧ b.status = total.status ∧
      (i = true → b.unread = total.unread) := by
  cases h with
  | ended hended => cases hchild.symm.trans hended
  | killed hkilled => cases hchild.symm.trans hkilled
  | running hrunning hbehaves hshown hstatus hunread =>
      obtain ⟨rfl, rfl⟩ := Child.running.inj (hrunning.symm.trans hchild)
      exact ⟨_, hbehaves, hshown, hstatus, hunread⟩

/-- What a child has not read when it gives up its input ends with what is not
written yet. -/
theorem suffix_unread {c : κ} {i : Bool} (hchild : s.child = .running c i)
    (hunread : s.child.reads = false → s.writer.pending <:+ total.unread)
    (hrest : i = true → (if i = true then some (s.stdin ++ s.writer.pending) else none).getD [] =
      total.unread) : s.writer.pending <:+ total.unread := by
  cases i with
  | false => exact hunread (by rw [hchild, Child.reads])
  | true =>
      rw [← hrest rfl]
      exact List.suffix_append _ _

theorem ChildStep.follows (h : ChildStep purpose next cap s t)
    (hs : s.Follows purpose next total n) (hheard : s.Heard total) :
    ∃ m, t.Follows purpose next total m ∧ t.Heard total ∧ t.weight m < s.weight n := by
  obtain ⟨hreading, hunread, hbroken⟩ := hheard
  cases h with
  | read hchild hnext hstdin =>
      obtain ⟨b, hbehaves, hshown, hstatus, hrest⟩ := hs.of_running hchild
      rw [if_pos rfl, hstdin, List.cons_append] at hbehaves
      obtain ⟨m, rfl, hlater⟩ := hbehaves.of_read hnext
      refine ⟨m, .running rfl (by simpa using hlater) ⟨hshown.out_eq, hshown.log_eq⟩ hstatus hrest,
        ⟨fun _ => hreading (by simp [hchild, Child.reads]), by simp [Child.reads], hbroken⟩, ?_⟩
      simp only [Session.weight]
      omega
  | readEnd hchild hnext hstdin hwriting =>
      -- the pipe is empty and the writer done: nothing of the input is left
      obtain ⟨b, hbehaves, hshown, hstatus, hrest⟩ := hs.of_running hchild
      have hpending : s.writer.pending = [] := by
        cases hw : s.writer <;> simp_all [Writer.isWriting, Writer.pending]
      rw [if_pos rfl, hstdin, hpending, List.nil_append] at hbehaves
      obtain ⟨m, rfl, hlater⟩ := hbehaves.of_readEnd hnext
      refine ⟨m, .running rfl (by simpa [hstdin, hpending] using hlater)
        ⟨hshown.out_eq, hshown.log_eq⟩ hstatus hrest,
        ⟨fun _ => hreading (by simp [hchild, Child.reads]), by simp [Child.reads], hbroken⟩, ?_⟩
      simp only [Session.weight]
      omega
  | readClosed hchild hnext =>
      obtain ⟨b, hbehaves, hshown, hstatus, -⟩ := hs.of_running hchild
      rw [if_neg (by simp)] at hbehaves
      obtain ⟨m, rfl, hlater⟩ := hbehaves.of_readClosed hnext
      refine ⟨m, .running rfl (by simpa using hlater) ⟨hshown.out_eq, hshown.log_eq⟩ hstatus
        (by simp), ⟨by simp [Child.reads],
          fun _ => hunread (by simp [hchild, Child.reads]), hbroken⟩, ?_⟩
      simp only [Session.weight]
      omega
  | closeIn hchild hnext =>
      obtain ⟨b, hbehaves, hshown, hstatus, hrest⟩ := hs.of_running hchild
      obtain ⟨m, b', rfl, hlater, rfl⟩ := hbehaves.of_closeIn hnext
      refine ⟨m, .running (b := b') rfl (by simpa using hlater) ⟨hshown.out_eq, hshown.log_eq⟩
        hstatus (by simp), ⟨by simp [Child.reads], fun _ => ?_, hbroken⟩, ?_⟩
      · exact suffix_unread (s := s) hchild hunread hrest
      · simp only [Session.weight]
        omega
  | out hpurpose hchild hnext hroom =>
      obtain ⟨b, hbehaves, hshown, hstatus, hrest⟩ := hs.of_running hchild
      obtain ⟨m, b', rfl, hlater, rfl⟩ := hbehaves.of_out hnext
      refine ⟨m, .running rfl hlater ⟨fun hp => ?_, hshown.log_eq⟩ hstatus hrest,
        ⟨?_, ?_, hbroken⟩, ?_⟩
      · simpa using hshown.out_eq hp
      · simpa [hchild, Child.reads] using hreading
      · simpa [hchild, Child.reads] using hunread
      · simp only [Session.weight, Drain.weight_push]
        omega
  | outNull hpurpose hchild hnext =>
      obtain ⟨b, hbehaves, hshown, hstatus, hrest⟩ := hs.of_running hchild
      obtain ⟨m, b', rfl, hlater, rfl⟩ := hbehaves.of_out hnext
      refine ⟨m, .running rfl hlater ⟨fun hp => ?_, hshown.log_eq⟩ hstatus hrest,
        ⟨?_, ?_, hbroken⟩, ?_⟩
      · simp [hpurpose] at hp
      · simpa [hchild, Child.reads] using hreading
      · simpa [hchild, Child.reads] using hunread
      · simp only [Session.weight]
        omega
  | log hchild hnext hroom =>
      obtain ⟨b, hbehaves, hshown, hstatus, hrest⟩ := hs.of_running hchild
      obtain ⟨m, b', rfl, hlater, rfl⟩ := hbehaves.of_log hnext
      refine ⟨m, .running rfl hlater ⟨hshown.out_eq, ?_⟩ hstatus hrest, ⟨?_, ?_, hbroken⟩, ?_⟩
      · simpa using hshown.log_eq
      · simpa [hchild, Child.reads] using hreading
      · simpa [hchild, Child.reads] using hunread
      · simp only [Session.weight, Drain.weight_push]
        omega
  | exit hchild hnext =>
      obtain ⟨b, hbehaves, hshown, hstatus, hrest⟩ := hs.of_running hchild
      obtain ⟨rfl, rfl⟩ := hbehaves.of_exit hnext
      refine ⟨0, .ended (by rw [← hstatus]) ⟨hshown.out_eq, hshown.log_eq⟩,
        ⟨by simp [Child.reads], fun _ => ?_, hbroken⟩, ?_⟩
      · exact suffix_unread (s := s) hchild hunread hrest
      · simp only [Session.weight]
        omega

theorem SessionStep.follows (h : SessionStep purpose next cap s t)
    (hs : s.Follows purpose next total n) (hheard : s.Heard total) :
    ∃ m, t.Follows purpose next total m ∧ t.Heard total ∧ t.weight m < s.weight n :=
  h.elim (fun h => h.follows hs hheard) fun h => h.follows hs hheard

/-- All that a session can cost, from the steps of the child alone and the sizes
of the frames. -/
def sessionBound (n : Nat) (frames : List Bytes) : Nat :=
  2 * n + (frames.map fun frame => frame.length + 1).sum + 3

theorem follows_start (purpose : Purpose) {c : κ} {frames : List Bytes}
    (hchild : Behaves next c (some frames.flatten) n total) :
    (purpose.start c frames).Follows purpose next total n ∧ (purpose.start c frames).Heard total ∧
      (purpose.start c frames).weight n ≤ sessionBound n frames := by
  cases purpose with
  | encode =>
      refine ⟨.running rfl hchild ⟨by simp, rfl⟩ rfl fun _ => rfl, ⟨?_, ?_, ?_⟩, ?_⟩
      · simp [Purpose.start, runWithFrames]
      · simp [Purpose.start, runWithFrames, Child.reads]
      · simp [Purpose.start, runWithFrames]
      · simp only [Session.weight, Purpose.start, runWithFrames, Writer.weight, Drain.weight,
          Drain.null, Drain.empty, sessionBound]
        simp
        omega
  | capture =>
      cases frames with
      | nil =>
          refine ⟨.running rfl hchild ⟨fun _ => rfl, rfl⟩ rfl fun _ => rfl, ⟨?_, ?_, ?_⟩, ?_⟩
          · simp [Purpose.start, runCaptureStdout]
          · simp [Purpose.start, runCaptureStdout, Child.reads]
          · simp [Purpose.start, runCaptureStdout]
          · simp [Session.weight, Purpose.start, runCaptureStdout, Writer.weight, Drain.weight,
              Drain.empty, sessionBound]
      | cons frame frames =>
          refine ⟨.running rfl hchild ⟨fun _ => rfl, rfl⟩ rfl fun _ => rfl, ⟨?_, ?_, ?_⟩, ?_⟩
          · simp [Purpose.start, runCaptureStdout]
          · simp [Purpose.start, runCaptureStdout, Child.reads]
          · simp [Purpose.start, runCaptureStdout]
          · simp [Session.weight, Purpose.start, runCaptureStdout, Writer.weight, Drain.weight,
              Drain.empty, sessionBound]
            omega

/-- Where a run of a child with a known behaviour stands, and what it can still
cost. -/
theorem run_follows (purpose : Purpose) {c : κ} {frames : List Bytes} {k : Nat}
    (hchild : Behaves next c (some frames.flatten) k total)
    (hrun : Run (SessionStep purpose next cap) n (purpose.start c frames) s) :
    n ≤ sessionBound k frames ∧ ∃ m, s.Follows purpose next total m ∧ s.Heard total := by
  obtain ⟨hfollows, hheard, hweight⟩ := follows_start purpose hchild
  obtain ⟨left, hpaid, m, hm, hheard', -⟩ := hrun.paid
    (fun w s => ∃ m, s.Follows purpose next total m ∧ s.Heard total ∧ w = s.weight m)
    (by
      rintro w s t ⟨m, hs, hheard, rfl⟩ hst
      obtain ⟨m', ht, hheard', hlt⟩ := hst.follows hs hheard
      exact ⟨t.weight m', hlt, m', ht, hheard', rfl⟩)
    ⟨k, hfollows, hheard, rfl⟩
  exact ⟨by omega, m, hm, hheard'⟩

/-- The child ended with this status, or by itself comes to end with it on what
the parent writes; no write broke. -/
structure Session.Ends (next : ChildProgram κ) (status : ExitStatus) (s : Session κ) : Prop where
  unbroken : s.writer ≠ .wrote false
  ends : s.child = .ended status ∨ ∃ c i n b, s.child = .running c i ∧
    Behaves next c (if i = true then some (s.stdin ++ s.writer.pending) else none) n b ∧
    b.status = status

theorem Session.Ends.congr {status : ExitStatus} (h : t.Ends next status)
    (hchild : t.child = s.child) (hunbroken : s.writer ≠ .wrote false)
    (hinput : t.stdin ++ t.writer.pending = s.stdin ++ s.writer.pending) :
    s.Ends next status := by
  refine ⟨hunbroken, h.ends.imp (fun hended => hchild ▸ hended) ?_⟩
  rintro ⟨c, i, n, b, hrunning, hbehaves, hstatus⟩
  exact ⟨c, i, n, b, hchild ▸ hrunning, hinput ▸ hbehaves, hstatus⟩

theorem ParentStep.ends {status : ExitStatus} (h : ParentStep purpose cap s t)
    (ht : t.Ends next status) : s.Ends next status := by
  cases h with
  | nextFrame hw => exact ht.congr rfl (by simp [hw]) (by simp [hw, Writer.pending])
  | push hw =>
      refine ht.congr rfl (by simp [hw]) ?_
      simp only [hw, Writer.pending, List.flatten_cons, List.append_assoc]
      rw [← List.append_assoc (List.take _ _), List.take_append_drop]
  | broken => exact absurd rfl ht.unbroken
  | close hw => exact ht.congr rfl (by simp [hw]) (by simp [hw, Writer.pending])
  | kill _ hw => exact absurd hw ht.unbroken
  | _ => exact ht.congr rfl ht.unbroken rfl

theorem Session.Ends.running {status : ExitStatus} (h : t.Ends next status) {c : κ} {i : Bool}
    (hchild : t.child = .running c i) :
    ∃ n b, Behaves next c (if i = true then some (t.stdin ++ t.writer.pending) else none) n b ∧
      b.status = status := by
  rcases h.ends with hended | ⟨c', i', n, b, hrunning, hbehaves, hstatus⟩
  · cases hchild.symm.trans hended
  · obtain ⟨rfl, rfl⟩ := Child.running.inj (hrunning.symm.trans hchild)
    exact ⟨n, b, hbehaves, hstatus⟩

theorem ChildStep.ends {status : ExitStatus} (h : ChildStep purpose next cap s t)
    (ht : t.Ends next status) : s.Ends next status := by
  cases h with
  | read hchild hnext hstdin =>
      obtain ⟨n, b, hbehaves, hstatus⟩ := ht.running rfl
      refine ⟨ht.unbroken, .inr ⟨_, _, n + 1, b, hchild, ?_, hstatus⟩⟩
      rw [if_pos rfl, hstdin, List.cons_append]
      exact .read hnext (by simpa using hbehaves)
  | readEnd hchild hnext hstdin hwriting =>
      have hpending : s.writer.pending = [] := by
        cases hw : s.writer <;> simp_all [Writer.isWriting, Writer.pending]
      obtain ⟨n, b, hbehaves, hstatus⟩ := ht.running rfl
      refine ⟨ht.unbroken, .inr ⟨_, _, n + 1, b, hchild, ?_, hstatus⟩⟩
      rw [if_pos rfl, hstdin, hpending, List.nil_append]
      exact .readEnd hnext (by simpa [hstdin, hpending] using hbehaves)
  | readClosed hchild hnext =>
      obtain ⟨n, b, hbehaves, hstatus⟩ := ht.running rfl
      exact ⟨ht.unbroken, .inr ⟨_, _, n + 1, b, hchild,
        by simpa using Behaves.readClosed hnext (by simpa using hbehaves), hstatus⟩⟩
  | closeIn hchild hnext =>
      obtain ⟨n, b, hbehaves, hstatus⟩ := ht.running rfl
      exact ⟨ht.unbroken, .inr ⟨_, _, n + 1, _, hchild,
        .closeIn hnext (by simpa using hbehaves), hstatus⟩⟩
  | out _ hchild hnext =>
      obtain ⟨n, b, hbehaves, hstatus⟩ := ht.running rfl
      exact ⟨ht.unbroken, .inr ⟨_, _, n + 1, _, hchild, .out hnext hbehaves, hstatus⟩⟩
  | outNull _ hchild hnext =>
      obtain ⟨n, b, hbehaves, hstatus⟩ := ht.running rfl
      exact ⟨ht.unbroken, .inr ⟨_, _, n + 1, _, hchild, .out hnext hbehaves, hstatus⟩⟩
  | log hchild hnext =>
      obtain ⟨n, b, hbehaves, hstatus⟩ := ht.running rfl
      exact ⟨ht.unbroken, .inr ⟨_, _, n + 1, _, hchild, .log hnext hbehaves, hstatus⟩⟩
  | exit hchild hnext =>
      refine ⟨ht.unbroken, .inr ⟨_, _, 1, _, hchild, .exit hnext, ?_⟩⟩
      simpa using ht.ends

/-- A session can only end well, all written, if the child by itself comes to
that end on the frames: there is nothing to assume of the child. -/
theorem exists_behaves_of_joined (purpose : Purpose) {c : κ} {frames : List Bytes}
    {status : ExitStatus}
    (hrun : Run (SessionStep purpose next cap) n (purpose.start c frames) s)
    (hjoined : s.Joined status true) (hsuccess : status.success = true) :
    ∃ k b, Behaves next c (some frames.flatten) k b ∧ b.status = status := by
  have hended : s.Ends next status := by
    refine ⟨by simp [hjoined.writer_eq], .inl ?_⟩
    have hstatus := hjoined.status_eq
    cases hchild : s.child with
    | running c i => simp [hchild, Child.status] at hstatus
    | ended st => simpa [hchild, Child.status] using hstatus
    | killed =>
        obtain rfl : ExitStatus.signaled sigkill = status := by
          simpa [hchild, Child.status] using hstatus
        simp [ExitStatus.success] at hsuccess
  have hstart := hrun.backward (fun _ _ hst ht => hst.elim (·.ends ht) (·.ends ht)) hended
  have hinput : (purpose.start c frames).stdin ++ (purpose.start c frames).writer.pending =
      frames.flatten := by
    cases purpose with
    | encode => rfl
    | capture => cases frames <;> rfl
  have hrunning : (purpose.start c frames).child = .running c true := by cases purpose <;> rfl
  simpa [hinput] using hstart.running hrunning

end Outcome

/-- What the parent of a child with a known behaviour knows in the end: all the
child wrote, unless a write broke, which only a child that leaves some of its
input can bring about. -/
structure Session.Learned {κ : Type} (purpose : Purpose) (total : Behaviour UInt8 ExitStatus)
    (s : Session κ) (status : ExitStatus) (wrote : Bool) : Prop where
  broken : wrote = false → total.unread ≠ []
  log_prefix : s.stderr.got <+: total.log
  all : wrote = true ∨ purpose = .capture → status = total.status ∧ s.stderr.got = total.log
  out : purpose = .capture → s.stdout.got = total.out

theorem learned_of_joined {κ : Type} {purpose : Purpose} {next : ChildProgram κ}
    {s : Session κ} {total : Behaviour UInt8 ExitStatus} {m : Nat} {status : ExitStatus}
    {wrote : Bool} (hjoined : s.Joined status wrote) (hs : s.Follows purpose next total m)
    (hheard : s.Heard total) (hwired : s.Wired purpose) :
    s.Learned purpose total status wrote := by
  obtain ⟨hstatus, hwriter, hout, herr⟩ := hjoined
  have hgotOut : s.stdout.got = s.stdout.held := by
    rw [Drain.held, hwired.out_drained hout, List.append_nil]
  have hgotErr : s.stderr.got = s.stderr.held := by
    rw [Drain.held, hwired.err_drained herr, List.append_nil]
  have hbroken : wrote = false → total.unread ≠ [] := by
    rintro rfl
    exact hheard.broken hwriter
  cases hs with
  | running hchild => simp [hchild, Child.status] at hstatus
  | ended hchild hshown =>
      have hlog : s.stderr.got = total.log := by simpa [hgotErr] using hshown.log_eq
      rw [hchild, Child.status, Option.some.injEq] at hstatus
      exact ⟨hbroken, by rw [hlog], fun _ => ⟨hstatus.symm, hlog⟩, fun hp => by
        simpa [hgotOut] using hshown.out_eq hp⟩
  | killed hchild hpurpose hkilled hprefix =>
      have hwrote : wrote = false := by simpa [hwriter] using hkilled
      exact ⟨hbroken, hgotErr ▸ hprefix, by simp [hwrote, hpurpose], by simp [hpurpose]⟩

section Returns

variable {κ : Type} {next : ChildProgram κ} {cap : Nat} {s : Session κ}
  {total : Behaviour UInt8 ExitStatus} {c : κ} {frames : List Bytes} {k n : Nat}
  (fromUtf8Lossy : Bytes → String)

def latin1 (buf : Bytes) : String := String.ofList (buf.map fun a => Char.ofNat a.toNat)

end Returns

end ReplayRenderer
