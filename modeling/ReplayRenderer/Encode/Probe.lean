import ReplayRenderer.Encode.Args

/-!
The startup probe. It lists the encoders, and tries the hardware one on a few
black frames when it is listed; both have a time limit. Whatever goes wrong on
the way, it is the software table that comes out, and what it takes for the other
one is a child that succeeds on the frames: how its steps and the parent's fall
together plays no part, but for the timer.
-/

namespace ReplayRenderer

open Lib

structure EncoderTable where
  h264 : EncoderChoice
  hevc : EncoderChoice
  deriving DecidableEq, Repr

def software : EncoderTable := ⟨.libx264, .libx265⟩

/-- What `Command::output` returns; stderr is null. -/
structure Output where
  status : ExitStatus
  stdout : Bytes
  deriving DecidableEq, Repr

/-- `text.contains(pat)`. -/
def contains (text pat : String) : Bool := pat.toList <:+: text.toList

/-- The frames of the smoke encode, of 64 by 64 black pixels. -/
def smokeFrames : List Bytes := List.replicate 16 (zeros (64 * 64 * 3))

def smokeArgs : List String :=
  ["-f", "rawvideo", "-pix_fmt", "rgb24", "-s", "64x64", "-r", "30/1", "-i", "pipe:0",
    "-c:v", "h264_nvenc", "-frames:v", "16", "-f", "null", "-"]

section Source

variable (fromUtf8Lossy : Bytes → String)

/-- The listing, if there is one to go by; `none` stands for a timeout. -/
def listingText (listing : Option (Except String Output)) : Option String :=
  match listing with
  | some (.ok out) => if out.status.success = true then some (fromUtf8Lossy out.stdout) else none
  | _ => none

/-- The probe, from what came of its two steps; the second is only taken where
it is looked at. -/
def probeEncoders (forceSoftware : Bool) (listing : Option (Except String Output))
    (smoke : Option (Except EncodeError Unit)) : EncoderTable :=
  if forceSoftware = true then software
  else
    match listingText fromUtf8Lossy listing with
    | none => software
    | some listing =>
      if contains listing "h264_nvenc" = false then software
      else
        match smoke with
        | some (.ok ()) =>
          { h264 := .h264Nvenc
            hevc := if contains listing "hevc_nvenc" = true then .hevcNvenc else .libx265 }
        | _ => software

end Source

/-! ### The smoke encode -/

/-- What can come of the smoke encode with an ffmpeg that behaves as its
arguments say: the timer cuts it short, the system fails, or the session comes to
its end in some order of steps. -/
inductive SmokeOutcome {κ : Type} (fromUtf8Lossy : Bytes → String) (next : ChildProgram κ)
    (cap : Nat) (ffmpeg : List String → κ) : Option (Except EncodeError Unit) → Prop where
  | timedOut : SmokeOutcome fromUtf8Lossy next cap ffmpeg none
  | spawn (bin source : String) :
      SmokeOutcome fromUtf8Lossy next cap ffmpeg (some (.error (.spawn bin source)))
  | io (source : String) : SmokeOutcome fromUtf8Lossy next cap ffmpeg (some (.error (.io source)))
  | joined {n : Nat} {s : Session κ} {status : ExitStatus} {wrote : Bool} :
      Run (SessionStep .encode next cap) n (runWithFrames (ffmpeg smokeArgs) smokeFrames) s →
      s.Joined status wrote →
      SmokeOutcome fromUtf8Lossy next cap ffmpeg
        (some (encodeResult fromUtf8Lossy status wrote s.stderr.got))

section Probe

variable {κ : Type} {fromUtf8Lossy : Bytes → String} {next : ChildProgram κ} {cap : Nat}
  {ffmpeg : List String → κ} {total : Behaviour UInt8 ExitStatus} {k : Nat}

theorem encodeResult_eq_ok {status : ExitStatus} {wrote : Bool} {err : Bytes} :
    encodeResult fromUtf8Lossy status wrote err = .ok () ↔
      wrote = true ∧ status.success = true := by
  cases wrote <;> cases hstatus : status.success <;> simp [encodeResult, hstatus]

/-- A session can only succeed if the child by itself does so on the frames. -/
theorem exists_behaves_of_ok {c : κ} {n : Nat} {s : Session κ} {status : ExitStatus} {wrote : Bool}
    (hrun : Run (SessionStep .encode next cap) n (runWithFrames c smokeFrames) s)
    (hjoined : s.Joined status wrote)
    (hok : encodeResult fromUtf8Lossy status wrote s.stderr.got = .ok ()) :
    ∃ k total, Behaves next c (some smokeFrames.flatten) k total ∧
      total.status.success = true := by
  obtain ⟨rfl, hsuccess⟩ := encodeResult_eq_ok.mp hok
  obtain ⟨k, total, hbehaves, hstatus⟩ := exists_behaves_of_joined .encode hrun hjoined hsuccess
  exact ⟨k, total, hbehaves, hstatus ▸ hsuccess⟩

/-- It does succeed if the child does and leaves nothing unread. -/
theorem ok_of_behaves {c : κ} (hchild : Behaves next c (some smokeFrames.flatten) k total) {n : Nat}
    {s : Session κ} {status : ExitStatus} {wrote : Bool}
    (hrun : Run (SessionStep .encode next cap) n (runWithFrames c smokeFrames) s)
    (hjoined : s.Joined status wrote) (hunread : total.unread = [])
    (hsuccess : total.status.success = true) :
    encodeResult fromUtf8Lossy status wrote s.stderr.got = .ok () := by
  obtain ⟨-, m, hfollows, hheard⟩ := run_follows .encode hchild hrun
  have hlearned := learned_of_joined hjoined hfollows hheard (run_wired .encode hrun)
  have hwrote : wrote = true := by
    by_contra hbroken
    exact hlearned.broken (by simpa using hbroken) hunread
  exact encodeResult_eq_ok.mpr ⟨hwrote, by rwa [(hlearned.all (.inl hwrote)).1]⟩

/-- The table of a probe that was not told what to find. -/
def nvencTable (text : String) : EncoderTable where
  h264 := .h264Nvenc
  hevc := if contains text "hevc_nvenc" = true then .hevcNvenc else .libx265

/-- Any step that goes wrong ends at the software table. -/
theorem probeEncoders_cases (force : Bool) (listing : Option (Except String Output))
    (smoke : Option (Except EncodeError Unit)) :
    probeEncoders fromUtf8Lossy force listing smoke = software ∨
      ∃ text, force = false ∧ listingText fromUtf8Lossy listing = some text ∧
        contains text "h264_nvenc" = true ∧ smoke = some (.ok ()) ∧
        probeEncoders fromUtf8Lossy force listing smoke = nvencTable text := by
  cases force with
  | true => exact .inl rfl
  | false =>
      cases hlisting : listingText fromUtf8Lossy listing with
      | none => exact .inl (by simp [probeEncoders, hlisting])
      | some text =>
          cases hlisted : contains text "h264_nvenc" with
          | false => exact .inl (by simp [probeEncoders, hlisting, hlisted])
          | true =>
              rcases smoke with _ | _ | _
              · exact .inl (by simp [probeEncoders, hlisting])
              · exact .inl (by simp [probeEncoders, hlisting])
              · refine .inr ⟨text, rfl, rfl, hlisted, rfl, ?_⟩
                simp [probeEncoders, hlisting, hlisted, nvencTable]

/-- The probe does not fail, whatever its steps come to and whatever the child
does. It chooses the hardware encoder only when the listing names it and the
child, by itself, comes to a successful end on the smoke frames, so never with a
child that hangs or dies; and with a child that succeeds and reads all of them,
every order of the session's steps that the timer does not cut short leads to
that choice. -/
theorem probeEncoders_spec (listing : Option (Except String Output)) :
    (∀ force smoke, SmokeOutcome fromUtf8Lossy next cap ffmpeg smoke →
      probeEncoders fromUtf8Lossy force listing smoke = software ∨
        ∃ text, force = false ∧ listingText fromUtf8Lossy listing = some text ∧
          contains text "h264_nvenc" = true ∧
          (∃ k total, Behaves next (ffmpeg smokeArgs) (some smokeFrames.flatten) k total ∧
            total.status.success = true) ∧
          probeEncoders fromUtf8Lossy force listing smoke = nvencTable text) ∧
    (∀ k total, Behaves next (ffmpeg smokeArgs) (some smokeFrames.flatten) k total →
      total.unread = [] → total.status.success = true → ∀ text,
      listingText fromUtf8Lossy listing = some text → contains text "h264_nvenc" = true →
      ∀ n s status wrote,
        Run (SessionStep .encode next cap) n (runWithFrames (ffmpeg smokeArgs) smokeFrames) s →
        s.Joined status wrote →
        probeEncoders fromUtf8Lossy false listing
          (some (encodeResult fromUtf8Lossy status wrote s.stderr.got)) = nvencTable text) := by
  refine ⟨?_, ?_⟩
  · intro force smoke hsmoke
    rcases probeEncoders_cases force listing smoke with
      hsoft | ⟨text, hforce, htext, hlisted, hok, htable⟩
    · exact .inl hsoft
    · refine .inr ⟨text, hforce, htext, hlisted, ?_, htable⟩
      cases hsmoke with
      | timedOut => cases hok
      | spawn => cases hok
      | io => cases hok
      | joined hrun hjoined => exact exists_behaves_of_ok hrun hjoined (Option.some.inj hok)
  · intro k total hchild hunread hsuccess text htext hlisted n s status wrote hrun hjoined
    have hok : encodeResult fromUtf8Lossy status wrote s.stderr.got = .ok () :=
      ok_of_behaves hchild hrun hjoined hunread hsuccess
    rw [hok]
    simp [probeEncoders, htext, hlisted, nvencTable]

end Probe

def bothListed : Option (Except String Output) :=
  some (.ok ⟨.exited 0, "h264_nvenc hevc_nvenc".toList.map fun c => UInt8.ofNat c.toNat⟩)

theorem listingText_bothListed :
    listingText latin1 bothListed = some "h264_nvenc hevc_nvenc" := by decide

def hang : ChildProgram Unit := fun _ => .read fun _ => ()

theorem not_behaves_hang {c : Unit} {i : Option Bytes} {k : Nat}
    {total : Behaviour UInt8 ExitStatus} : ¬Behaves hang c i k total := by
  intro h
  induction h with
  | read _ _ ih => exact ih
  | readEnd _ _ ih => exact ih
  | readClosed _ _ ih => exact ih
  | closeIn hnext => cases hnext
  | out hnext => cases hnext
  | log hnext => cases hnext
  | exit hnext => cases hnext

/-- An ffmpeg that swallows its input is chosen in the end, and one that hangs
never is. -/
theorem probeEncoders_spec_cat_hang :
    (∀ n s status wrote,
      Run (SessionStep .encode cat 1) n (runWithFrames .ready smokeFrames) s →
      s.Joined status wrote →
      probeEncoders latin1 false bothListed
        (some (encodeResult latin1 status wrote s.stderr.got)) = ⟨.h264Nvenc, .hevcNvenc⟩) ∧
    ∀ force smoke, SmokeOutcome latin1 hang 1 (fun _ => ()) smoke →
      probeEncoders latin1 force bothListed smoke = software := by
  have hchild : Behaves cat .ready (some smokeFrames.flatten) (2 * smokeFrames.flatten.length + 2)
      ⟨smokeFrames.flatten, [], [], .exited 0⟩ := behaves_cat smokeFrames.flatten
  obtain ⟨-, hevery⟩ :=
    @probeEncoders_spec _ latin1 cat 1 (fun _ => CatState.ready) bothListed
  obtain ⟨honly, -⟩ := @probeEncoders_spec _ latin1 hang 1 (fun _ => ()) bothListed
  refine ⟨hevery _ _ hchild rfl (by decide) _ listingText_bothListed (by decide), ?_⟩
  intro force smoke hsmoke
  refine (honly force smoke hsmoke).resolve_right ?_
  rintro ⟨text, -, -, -, ⟨k, total, hbehaves, -⟩, -⟩
  exact not_behaves_hang hbehaves

end ReplayRenderer
