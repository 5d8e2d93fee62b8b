import ReplayRenderer.Lib.Decimal
import ReplayRenderer.Encode.Session

/-!
The command lines of ffmpeg. Every encode shares the prologue that describes raw
frames on stdin; what follows differs from builder to builder, and a quality of
zero is replaced by the encoder's own. A command line says all that was asked
for, and in one way only.
-/

namespace ReplayRenderer

open Lib Lib.Outcome

inductive Codec where
  | h264 | h265
  deriving DecidableEq, Repr

structure VideoOptions where
  codec : Codec
  targetWidth : UInt32
  targetHeight : UInt32
  forceSoftware : Bool
  parCorrect : Bool
  crfOrCq : UInt32
  deriving DecidableEq, Repr

structure Geometry where
  outW : UInt32
  outH : UInt32
  fpsNum : UInt32
  fpsDen : UInt32
  deriving DecidableEq, Repr

inductive EncoderChoice where
  | h264Nvenc | hevcNvenc | libx264 | libx265
  deriving DecidableEq, Repr

def EncoderChoice.name : EncoderChoice → String
  | .h264Nvenc => "h264_nvenc"
  | .hevcNvenc => "hevc_nvenc"
  | .libx264 => "libx264"
  | .libx265 => "libx265"

def effectiveQuality (o : VideoOptions) (enc : EncoderChoice) : UInt32 :=
  if o.crfOrCq ≠ 0 then o.crfOrCq
  else
    match enc with
    | .h264Nvenc | .hevcNvenc => 19
    | .libx264 => 18
    | .libx265 => 20

/-- `{a}x{b}` and `{a}/{b}`. -/
def numberPair (sep : Char) (a b : UInt32) : String :=
  toString a.toNat ++ String.singleton sep ++ toString b.toNat

def rawvideoInput (g : Geometry) : List String :=
  ["-f", "rawvideo", "-pix_fmt", "rgb24", "-s", numberPair 'x' g.outW g.outH,
    "-r", numberPair '/' g.fpsNum g.fpsDen, "-i", "pipe:0"]

def encoderArgs (enc : EncoderChoice) (q : UInt32) : List String :=
  match enc with
  | .h264Nvenc | .hevcNvenc =>
    ["-c:v", enc.name, "-preset", "p5", "-rc", "vbr", "-cq", toString q.toNat, "-b:v", "0"]
  | .libx264 => ["-c:v", "libx264", "-preset", "veryslow", "-crf", toString q.toNat]
  | .libx265 => ["-c:v", "libx265", "-preset", "slower", "-crf", toString q.toNat]

def mp4Args (o : VideoOptions) (g : Geometry) (enc : EncoderChoice) (metadataComment out : String) :
    List String :=
  rawvideoInput g ++ (encoderArgs enc (effectiveQuality o enc) ++
    (["-pix_fmt", "yuv420p", "-movflags", "+faststart", "-metadata",
        "comment=" ++ metadataComment] ++
      ((if o.parCorrect then ["-aspect", "4:3"] else []) ++ ["-y", out])))

def gifPalettegenArgs (g : Geometry) (paletteOut : String) : List String :=
  rawvideoInput g ++ ["-vf", "palettegen", "-y", paletteOut]

def gifEncodeArgs (g : Geometry) (palette out : String) : List String :=
  rawvideoInput g ++
    ["-i", palette, "-filter_complex", "[0:v][1:v]paletteuse=dither=none", "-y", out]

def webpArgs (g : Geometry) (out : String) : List String :=
  rawvideoInput g ++ (["-c:v", "libwebp_anim", "-lossless", "1", "-loop", "0", "-y"] ++ [out])

def decodeToRawvideoArgs (input : String) (w h : UInt32) : List String :=
  ["-i", input, "-f", "rawvideo", "-pix_fmt", "rgb24", "-s", numberPair 'x' w h, "pipe:1"]

/-! ### What a command line says -/

inductive Invocation where
  | mp4 (o : VideoOptions) (g : Geometry) (enc : EncoderChoice) (metadataComment out : String)
  | gifPalettegen (g : Geometry) (paletteOut : String)
  | gifEncode (g : Geometry) (palette out : String)
  | webp (g : Geometry) (out : String)
  | decodeToRawvideo (input : String) (w h : UInt32)

def Invocation.args : Invocation → List String
  | .mp4 o g enc metadataComment out => mp4Args o g enc metadataComment out
  | .gifPalettegen g paletteOut => gifPalettegenArgs g paletteOut
  | .gifEncode g palette out => gifEncodeArgs g palette out
  | .webp g out => webpArgs g out
  | .decodeToRawvideo input w h => decodeToRawvideoArgs input w h

/-- What ffmpeg is asked for: of the video options only the quality that takes
effect and the aspect hint. -/
inductive Request where
  | mp4 (g : Geometry) (enc : EncoderChoice) (quality : UInt32) (parCorrect : Bool)
      (metadataComment out : String)
  | gifPalettegen (g : Geometry) (paletteOut : String)
  | gifEncode (g : Geometry) (palette out : String)
  | webp (g : Geometry) (out : String)
  | decodeToRawvideo (input : String) (w h : UInt32)
  deriving DecidableEq, Repr

def Invocation.request : Invocation → Request
  | .mp4 o g enc metadataComment out =>
    .mp4 g enc (effectiveQuality o enc) o.parCorrect metadataComment out
  | .gifPalettegen g paletteOut => .gifPalettegen g paletteOut
  | .gifEncode g palette out => .gifEncode g palette out
  | .webp g out => .webp g out
  | .decodeToRawvideo input w h => .decodeToRawvideo input w h

theorem numberPair_inj {sep : Char} (hsep : sep.isDigit = false) {a b a' b' : UInt32} :
    numberPair sep a b = numberPair sep a' b' ↔ a = a' ∧ b = b' := by
  constructor
  · intro h
    have hlists := congrArg String.toList h
    simp only [numberPair, String.toList_append, String.toList_singleton, List.append_assoc,
      List.singleton_append, Nat.toString_eq_repr, Nat.toList_repr] at hlists
    obtain ⟨ha, hb⟩ := repr_pair_inj hsep hlists
    exact ⟨UInt32.toNat_inj.mp ha, UInt32.toNat_inj.mp hb⟩
  · rintro ⟨rfl, rfl⟩
    rfl

/-- The prologue says the geometry, and ends where it ends. -/
theorem rawvideoInput_append_inj {g g' : Geometry} {rest rest' : List String} :
    rawvideoInput g ++ rest = rawvideoInput g' ++ rest' ↔ g = g' ∧ rest = rest' := by
  obtain ⟨outW, outH, fpsNum, fpsDen⟩ := g
  obtain ⟨outW', outH', fpsNum', fpsDen'⟩ := g'
  simp only [rawvideoInput, List.cons_append, List.nil_append, List.cons.injEq, true_and,
    numberPair_inj (show 'x'.isDigit = false by decide),
    numberPair_inj (show '/'.isDigit = false by decide), Geometry.mk.injEq, and_assoc]

theorem rawvideoInput_append_ne {g : Geometry} {rest rest' : List String} :
    rawvideoInput g ++ rest ≠ "-i" :: rest' := by
  simp [rawvideoInput]

/-- The encoders are told apart by their names. -/
theorem encoderArgs_append_inj {enc enc' : EncoderChoice} {q q' : UInt32}
    {rest rest' : List String} :
    encoderArgs enc q ++ rest = encoderArgs enc' q' ++ rest' ↔
      (enc = enc' ∧ q = q') ∧ rest = rest' := by
  cases enc <;> cases enc' <;> simp [encoderArgs, EncoderChoice.name, UInt32.toNat_inj]

/-- None of them is the encoder of the animated stills, and none of the other
passes names an encoder. -/
theorem encoderArgs_append_ne {enc : EncoderChoice} {q : UInt32} {rest rest' : List String}
    {opt : String} (hopt : opt ≠ "-c:v" ∨ rest'.head? = some "libwebp_anim") :
    encoderArgs enc q ++ rest ≠ opt :: rest' := by
  rintro heq
  rcases hopt with hopt | hopt
  · apply hopt
    cases enc <;> simp [encoderArgs] at heq <;> exact heq.1.symm
  · cases rest' with
    | nil => simp at hopt
    | cons name rest' =>
        obtain rfl : name = "libwebp_anim" := by simpa using hopt
        cases enc <;> simp [encoderArgs, EncoderChoice.name] at heq

theorem mp4Args_eq_iff {o o' : VideoOptions} {g g' : Geometry} {enc enc' : EncoderChoice}
    {comment comment' out out' : String} :
    mp4Args o g enc comment out = mp4Args o' g' enc' comment' out' ↔
      Invocation.request (.mp4 o g enc comment out) =
        Invocation.request (.mp4 o' g' enc' comment' out') := by
  simp only [mp4Args, rawvideoInput_append_inj, encoderArgs_append_inj, Invocation.request,
    Request.mp4.injEq]
  cases o.parCorrect <;> cases o'.parCorrect <;> simp [and_assoc]

def Invocation.isVideo : Invocation → Bool
  | .mp4 .. => true
  | _ => false

theorem mp4Args_ne {o : VideoOptions} {g : Geometry} {enc : EncoderChoice} {comment out : String}
    {j : Invocation} (hj : j.isVideo = false) : mp4Args o g enc comment out ≠ j.args := by
  cases j with
  | mp4 => cases hj
  | gifPalettegen g paletteOut =>
      simp [Invocation.args, mp4Args, gifPalettegenArgs, rawvideoInput_append_inj,
        encoderArgs_append_ne]
  | gifEncode g palette out =>
      simp [Invocation.args, mp4Args, gifEncodeArgs, rawvideoInput_append_inj,
        encoderArgs_append_ne]
  | webp g out =>
      simp [Invocation.args, mp4Args, webpArgs, rawvideoInput_append_inj, encoderArgs_append_ne]
  | decodeToRawvideo input w h =>
      simp [Invocation.args, mp4Args, decodeToRawvideoArgs, rawvideoInput_append_ne]

theorem request_ne {o : VideoOptions} {g : Geometry} {enc : EncoderChoice} {comment out : String}
    {j : Invocation} (hj : j.isVideo = false) :
    Invocation.request (.mp4 o g enc comment out) ≠ j.request := by
  cases j with
  | mp4 => cases hj
  | _ => simp [Invocation.request]

theorem args_eq_iff_of_not_video {j j' : Invocation} (hj : j.isVideo = false)
    (hj' : j'.isVideo = false) : j.args = j'.args ↔ j.request = j'.request := by
  have hread : ∀ {g rest rest'}, "-i" :: rest' ≠ rawvideoInput g ++ rest :=
    fun {_ _ _} => rawvideoInput_append_ne.symm
  have hsize := fun {a b a' b' : UInt32} =>
    @numberPair_inj 'x' (by decide) a b a' b'
  cases j <;> cases j' <;>
    simp_all [Invocation.isVideo, Invocation.args, Invocation.request, gifPalettegenArgs,
      gifEncodeArgs, webpArgs, decodeToRawvideoArgs, rawvideoInput_append_inj,
      rawvideoInput_append_ne]

/-- Two calls build the same command line exactly when they ask for the same:
the geometry and the rate, the encoder with the quality that takes effect, the
files and the comment can all be read off it, whatever the texts are. -/
theorem args_eq_iff (j j' : Invocation) : j.args = j'.args ↔ j.request = j'.request := by
  cases hj : j.isVideo with
  | false =>
      cases hj' : j'.isVideo with
      | false => exact args_eq_iff_of_not_video hj hj'
      | true =>
          cases j' with
          | mp4 => exact iff_of_false (mp4Args_ne hj).symm (request_ne hj).symm
          | _ => cases hj'
  | true =>
      cases j with
      | mp4 =>
          cases hj' : j'.isVideo with
          | false => exact iff_of_false (mp4Args_ne hj') (request_ne hj')
          | true =>
              cases j' with
              | mp4 => exact mp4Args_eq_iff
              | _ => cases hj'
      | _ => cases hj

end ReplayRenderer
