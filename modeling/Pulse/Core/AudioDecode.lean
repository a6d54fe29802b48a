import Mathlib.Data.List.GetD
import Pulse.Lib.Arrays
import Pulse.Lib.Except
import Pulse.Lib.Lists

/-!
# Tracks and channels

`combine_stereo` and `decode_wav` of `core/audio/decode.py`: two mono tracks become the channels of
one recording, and the channels of a recording become samples under the names of the speakers. The
container format is a parameter, with what is expected of it.
-/

namespace Pulse.Core.Audio

open Lib (Grid frombuffer padTo reshape sampleAt setStrided tobytes upsert)

inductive AudioError
  | wave (message : String)
  | valueError (message : String)
  | indexError
  deriving DecidableEq, Repr

/-- A file that the `wave` module has opened; of the frames at the end the last may be cut. -/
@[ext]
structure Wav where
  nchannels : UInt16
  sampwidth : Nat
  framerate : UInt32
  data : List UInt8
  nchannels_pos : 0 < nchannels.toNat
  sampwidth_pos : 0 < sampwidth

namespace Wav

variable (w : Wav)

def frameSize : Nat := w.nchannels.toNat * w.sampwidth

def getnframes : Nat := w.data.length / w.frameSize

def readframes (n : Nat) : List UInt8 := w.data.take (n * w.frameSize)

end Wav

/-- The `wave` module: what a file holds, and the file for what it is to hold. -/
structure WaveModule where
  read : List UInt8 → Except AudioError Wav
  write : Wav → Except AudioError (List UInt8)

/-- Whole frames of 16-bit samples, at a rate. -/
structure Wav.Pcm16 (w : Wav) : Prop where
  sampwidth : w.sampwidth = 2
  framerate : 0 < w.framerate
  whole : w.frameSize ∣ w.data.length

def WaveModule.RoundTrips (io : WaveModule) : Prop :=
  ∀ w : Wav, w.Pcm16 → ∃ bytes, io.write w = .ok bytes ∧ io.read bytes = .ok w

/-! ### The functions -/

section

variable (io : WaveModule)

/-- `np.frombuffer(…, dtype="<i2")` -/
def samplesOf (raw : List UInt8) : Except AudioError (List Int16) :=
  match frombuffer raw with
  | some xs => .ok xs
  | none => .error (.valueError "buffer size must be a multiple of element size")

def stereo (rate : UInt32) (interleaved : List Int16) : Wav where
  nchannels := 2
  sampwidth := 2
  framerate := rate
  data := tobytes interleaved
  nchannels_pos := by decide
  sampwidth_pos := by decide

/-- The flat array of `combine_stereo`. -/
def interleave (left right : List Int16) : List Int16 :=
  let n := max left.length right.length
  setStrided 1 2 (padTo n 0 right)
    (setStrided 0 2 (padTo n 0 left) (List.replicate (n * 2) 0))

/-- `combine_stereo` -/
def combineStereo (callerWav agentWav : List UInt8) : Except AudioError (List UInt8) := do
  let c ← io.read callerWav
  let a ← io.read agentWav
  let left ← samplesOf (c.readframes c.getnframes)
  let right ← samplesOf (a.readframes a.getnframes)
  io.write (stereo c.framerate (interleave left right))

/-- `DecodedAudio` -/
structure DecodedAudio where
  channels : List (String × List Int16)
  sampleRate : Nat
  nFrames : Nat
  deriving DecidableEq, Repr

/-- One turn of the loop over the channel map. -/
def addChannel (nChannels : Nat) (deint : Grid Int16) (channels : List (String × List Int16))
    (entry : Int × String) : Except AudioError (List (String × List Int16)) :=
  if entry.1 < nChannels then
    match deint.index entry.1 with
    | some k => .ok (upsert channels entry.2 fun _ => deint.column k)
    | none => .error .indexError
  else .ok channels

/-- `decode_wav` -/
def decodeWav (audio : List UInt8) (channelMap : List (Int × String)) :
    Except AudioError DecodedAudio := do
  let w ← io.read audio
  let nChannels := w.nchannels.toNat
  if w.sampwidth ≠ 2 then
    throw (.valueError ("expected PCM16 (2-byte samples), got sampwidth=" ++ toString w.sampwidth))
  let flat ← samplesOf (w.readframes w.getnframes)
  match reshape (if nChannels > 1 then nChannels else 1) flat with
  | none => throw (.valueError "cannot reshape array")
  | some deint =>
    let channels ← channelMap.foldlM (addChannel nChannels deint) []
    return { channels, sampleRate := w.framerate.toNat, nFrames := deint.rows.length }

end

/-! ### What they are for -/

/-- The samples of one channel: each frame has one. -/
def Wav.channelSamples (w : Wav) (k : Nat) : List Int16 :=
  (List.range w.getnframes).map fun i => sampleAt w.data (i * w.nchannels.toNat + k)

/-- The file of one track. -/
def mono (rate : UInt32) (samples : List Int16) : Wav where
  nchannels := 1
  sampwidth := 2
  framerate := rate
  data := tobytes samples
  nchannels_pos := by decide
  sampwidth_pos := by decide

/-- The columns of the map that the file has, each under its name. -/
def Wav.named (w : Wav) (channelMap : List (Int × String)) : List (String × List Int16) :=
  channelMap.filterMap fun entry =>
    if entry.1 < (w.nchannels.toNat : Int) then some (entry.2, w.channelSamples entry.1.toNat)
    else none

/-! ### Splitting -/

section

variable {w : Wav}

lemma length_readframes : (w.readframes w.getnframes).length = w.getnframes * w.frameSize := by
  have hle : w.getnframes * w.frameSize ≤ w.data.length := Nat.div_mul_le_self _ _
  rw [Wav.readframes, List.length_take, Nat.min_eq_left hle]

/-- The samples that are read are those of the whole frames. -/
lemma exists_samplesOf (hwidth : w.sampwidth = 2) : ∃ flat,
    samplesOf (w.readframes w.getnframes) = .ok flat ∧
      flat.length = w.getnframes * w.nchannels.toNat ∧
        ∀ i (hi : i < flat.length), flat[i] = sampleAt w.data i := by
  have hlength := length_readframes (w := w)
  have hsize : w.frameSize = w.nchannels.toNat * 2 := by rw [Wav.frameSize, hwidth]
  rw [hsize, ← Nat.mul_assoc] at hlength
  have hsome := Lib.frombuffer_isSome_iff.2 (by rw [hlength, Nat.mul_mod_left])
  obtain ⟨flat, hflat⟩ := Option.isSome_iff_exists.1 hsome
  have hcount := Lib.length_frombuffer hflat
  refine ⟨flat, by rw [samplesOf, hflat], by omega, fun i hi => ?_⟩
  rw [Lib.getElem_frombuffer hflat hi, Wav.readframes, Lib.sampleAt_take]
  rw [hsize, ← Nat.mul_assoc]
  omega

lemma foldlM_addChannel {nChannels : Nat} {deint : Grid Int16} (hwidth : deint.width = nChannels)
    {column : Nat → List Int16} (hcolumn : ∀ k : Fin deint.width, deint.column k = column k)
    {channelMap : List (Int × String)} (hnames : (channelMap.map Prod.snd).Nodup)
    (hindex : ∀ entry ∈ channelMap, 0 ≤ entry.1) {channels : List (String × List Int16)}
    (hfresh : ∀ entry ∈ channelMap, entry.2 ∉ channels.map Prod.fst) :
    channelMap.foldlM (addChannel nChannels deint) channels =
      .ok (channels ++ channelMap.filterMap fun entry =>
        if entry.1 < (nChannels : Int) then some (entry.2, column entry.1.toNat) else none) := by
  induction channelMap generalizing channels with
  | nil => simp [pure, Except.pure]
  | cons entry channelMap ih =>
    have hnonneg := hindex entry List.mem_cons_self
    have hname := hfresh entry List.mem_cons_self
    rw [List.map_cons, List.nodup_cons] at hnames
    have hrest : ∀ e ∈ channelMap, 0 ≤ e.1 := fun e he => hindex e (List.mem_cons_of_mem _ he)
    have hfresh' : ∀ e ∈ channelMap, e.2 ∉ channels.map Prod.fst := fun e he =>
      hfresh e (List.mem_cons_of_mem _ he)
    rw [List.foldlM_cons, addChannel, List.filterMap_cons]
    by_cases hlt : entry.1 < (nChannels : Int)
    · obtain ⟨k, hk⟩ := Int.eq_ofNat_of_zero_le hnonneg
      have hlt' : k < deint.width := by omega
      have hindex' : deint.index entry.1 = some ⟨k, hlt'⟩ := by
        rw [deint.index_of_nonneg hnonneg, hk, Lib.inBounds_of_lt hlt']
      have hadded : ∀ e ∈ channelMap,
          e.2 ∉ (channels ++ [(entry.2, column entry.1.toNat)]).map Prod.fst := by
        intro e he
        rw [List.map_append, List.mem_append, not_or]
        refine ⟨hfresh' e he, fun hsame => hnames.1 ?_⟩
        exact List.mem_map.2 ⟨e, he, List.mem_singleton.1 hsame⟩
      rw [if_pos hlt, if_pos hlt, hindex']
      dsimp only
      rw [hcolumn, Lib.upsert_of_notMem hname, Lib.ok_bind]
      rw [hk, Int.toNat_natCast] at hadded ⊢
      rw [ih hnames.2 hrest hadded]
      simp
    · rw [if_neg hlt, if_neg hlt, Lib.ok_bind, ih hnames.2 hrest hfresh']

theorem decodeWav_eq {io : WaveModule} {audio : List UInt8} (hread : io.read audio = .ok w)
    (hwidth : w.sampwidth = 2) {channelMap : List (Int × String)}
    (hnames : (channelMap.map Prod.snd).Nodup) (hindex : ∀ entry ∈ channelMap, 0 ≤ entry.1) :
    decodeWav io audio channelMap =
      .ok ⟨w.named channelMap, w.framerate.toNat, w.getnframes⟩ := by
  obtain ⟨flat, hflat, hlength, hsamples⟩ := exists_samplesOf hwidth
  have hpos := w.nchannels_pos
  obtain ⟨g, hg, hgwidth, hrows⟩ := Lib.reshape_of_dvd
    (hlength ▸ Nat.dvd_mul_left w.nchannels.toNat w.getnframes : w.nchannels.toNat ∣ flat.length)
  have hframes : flat.length / w.nchannels.toNat = w.getnframes := by
    rw [hlength, Nat.mul_div_cancel _ hpos]
  have hone : (if w.nchannels.toNat > 1 then w.nchannels.toNat else 1) = w.nchannels.toNat := by
    split <;> omega
  have hcolumn : ∀ k : Fin g.width, g.column k = w.channelSamples k := by
    intro k
    rw [Lib.column_reshape hg k 0, hframes, Wav.channelSamples]
    apply List.map_congr_left
    intro i hi
    have hlt := Lib.index_lt (Nat.lt_of_lt_of_eq k.2 hgwidth)
      (Nat.lt_of_lt_of_eq (List.mem_range.1 hi) hframes.symm)
    rw [List.getD_eq_getElem _ _ hlt, hsamples]
  have hchannels : channelMap.foldlM (addChannel w.nchannels.toNat g) [] =
      .ok (w.named channelMap) :=
    foldlM_addChannel hgwidth hcolumn hnames hindex fun _ _ => List.not_mem_nil
  have hn : g.rows.length = w.getnframes := by
    rw [hrows, Lib.rowsOf, List.length_map, List.length_range, hframes]
  unfold decodeWav
  rw [hread, Lib.ok_bind]
  simp only [hwidth, ne_eq, not_true_eq_false, if_false, hflat, Lib.ok_bind, hone, hg, hchannels, hn]
  rfl

end

/-! ### Combining -/

section

variable (l r : List Int16) (rate : UInt32)

lemma length_interleave : (interleave l r).length = max l.length r.length * 2 := by
  simp [interleave]

variable {l r}

lemma getElem?_interleave {i : Nat} (hi : i < max l.length r.length) :
    (interleave l r)[0 + i * 2]? = (padTo (max l.length r.length) 0 l)[i]? ∧
      (interleave l r)[1 + i * 2]? = (padTo (max l.length r.length) 0 r)[i]? := by
  have hleft := Lib.length_padTo (0 : Int16) (Nat.le_max_left l.length r.length)
  have hright := Lib.length_padTo (0 : Int16) (Nat.le_max_right l.length r.length)
  exact Lib.getElem?_setStrided_two List.length_replicate hleft hright hi

lemma getnframes_stereo :
    (stereo rate (interleave l r)).getnframes = max l.length r.length := by
  change (tobytes (interleave l r)).length / 4 = _
  rw [Lib.length_tobytes, length_interleave]
  omega

lemma channelSamples_stereo {k : Nat} (hk : k < 2) {samples : List Int16}
    (hlength : samples.length = max l.length r.length)
    (hsamples : ∀ i < max l.length r.length, (interleave l r)[k + i * 2]? = samples[i]?) :
    (stereo rate (interleave l r)).channelSamples k = samples := by
  have hcount : ((stereo rate (interleave l r)).channelSamples k).length = samples.length := by
    rw [Wav.channelSamples, List.length_map, List.length_range, getnframes_stereo, hlength]
  apply List.ext_getElem hcount
  intro i hi hi'
  have hindex : i * 2 + k < (interleave l r).length := by
    rw [length_interleave]
    omega
  have hsample := hsamples i (hlength ▸ hi')
  rw [Nat.add_comm, List.getElem?_eq_getElem hindex, List.getElem?_eq_getElem hi',
    Option.some.injEq] at hsample
  simp only [Wav.channelSamples, List.getElem_map, List.getElem_range]
  exact (Lib.sampleAt_tobytes hindex).trans hsample

lemma samplesOf_mono :
    samplesOf ((mono rate l).readframes (mono rate l).getnframes) = .ok l := by
  have hraw : (mono rate l).readframes (mono rate l).getnframes = tobytes l := by
    apply List.take_of_length_le
    change (tobytes l).length ≤ (tobytes l).length / 2 * 2
    rw [Lib.length_tobytes]
    omega
  rw [hraw, samplesOf, Lib.frombuffer_tobytes]

variable {rate}

lemma pcm16_mono (hrate : 0 < rate) : (mono rate l).Pcm16 where
  sampwidth := rfl
  framerate := hrate
  whole := by
    change 2 ∣ (tobytes l).length
    rw [Lib.length_tobytes]
    exact Nat.dvd_mul_right _ _

lemma pcm16_stereo (hrate : 0 < rate) : (stereo rate (interleave l r)).Pcm16 where
  sampwidth := rfl
  framerate := hrate
  whole := by
    change 4 ∣ (tobytes (interleave l r)).length
    rw [Lib.length_tobytes, length_interleave]
    omega

end

/-- Two tracks that are combined are found again in the channels, filled up with silence to the
longer of them; and of any recording, each channel that the map names is found under its name. -/
theorem combine_split_lossless {io : WaveModule} (hio : io.RoundTrips) :
    (∀ (rate : UInt32) (l r : List Int16), 0 < rate →
      (do
        let combined ← combineStereo io (← io.write (mono rate l)) (← io.write (mono rate r))
        decodeWav io combined [(0, "caller"), (1, "agent")]) =
      .ok {
        channels := [("caller", padTo (max l.length r.length) 0 l),
          ("agent", padTo (max l.length r.length) 0 r)]
        sampleRate := rate.toNat
        nFrames := max l.length r.length }) ∧
    ∀ (audio : List UInt8) (w : Wav) (channelMap : List (Int × String)), io.read audio = .ok w →
      w.sampwidth = 2 → (channelMap.map Prod.snd).Nodup → (∀ entry ∈ channelMap, 0 ≤ entry.1) →
        decodeWav io audio channelMap =
          .ok ⟨w.named channelMap, w.framerate.toNat, w.getnframes⟩ := by
  refine ⟨fun rate l r hrate => ?_, fun audio w channelMap hread hwidth hnames hindex =>
    decodeWav_eq hread hwidth hnames hindex⟩
  obtain ⟨cw, hcwrite, hcread⟩ := hio (mono rate l) (pcm16_mono hrate)
  obtain ⟨aw, hawrite, haread⟩ := hio (mono rate r) (pcm16_mono hrate)
  obtain ⟨out, hwrite, hread⟩ := hio (stereo rate (interleave l r)) (pcm16_stereo hrate)
  have hcombined : combineStereo io cw aw = .ok out := by
    rw [combineStereo, hcread, Lib.ok_bind, haread, Lib.ok_bind, samplesOf_mono, Lib.ok_bind,
      samplesOf_mono, Lib.ok_bind]
    exact hwrite
  have hcaller := channelSamples_stereo rate (k := 0) (by decide)
    (Lib.length_padTo (0 : Int16) (Nat.le_max_left l.length r.length))
    fun i hi => (getElem?_interleave hi).1
  have hagent := channelSamples_stereo rate (k := 1) (by decide)
    (Lib.length_padTo (0 : Int16) (Nat.le_max_right l.length r.length))
    fun i hi => (getElem?_interleave hi).2
  have hnames : ([(0, "caller"), (1, "agent")].map (Prod.snd : Int × String → String)).Nodup := by
    decide
  have hdecoded := decodeWav_eq hread rfl hnames (by decide)
  have hnamed : (stereo rate (interleave l r)).named [(0, "caller"), (1, "agent")] =
      [("caller", (stereo rate (interleave l r)).channelSamples 0),
        ("agent", (stereo rate (interleave l r)).channelSamples 1)] := rfl
  rw [hawrite, hcwrite, Lib.ok_bind, Lib.ok_bind, hcombined, Lib.ok_bind, hdecoded,
    getnframes_stereo, hnamed, hcaller, hagent]
  rfl

/-! ### A container -/

def leBytes : Nat → Nat → List UInt8
  | 0, _ => []
  | width + 1, n => UInt8.ofNat n :: leBytes width (n / 256)

def ofLeBytes (bytes : List UInt8) : Nat := bytes.foldr (fun b n => b.toNat + 256 * n) 0

lemma ofLeBytes_two {n : Nat} (h : n < 65536) : ofLeBytes (leBytes 2 n) = n := by
  simp only [leBytes, ofLeBytes, List.foldr_cons, List.foldr_nil, UInt8.toNat_ofNat']
  omega

lemma ofLeBytes_four {n : Nat} (h : n < 4294967296) : ofLeBytes (leBytes 4 n) = n := by
  simp only [leBytes, ofLeBytes, List.foldr_cons, List.foldr_nil, UInt8.toNat_ofNat']
  omega

def riffTag : List UInt8 := [0x52, 0x49, 0x46, 0x46]

def waveFmtTag : List UInt8 := [0x57, 0x41, 0x56, 0x45, 0x66, 0x6D, 0x74, 0x20]

def dataTag : List UInt8 := [0x64, 0x61, 0x74, 0x61]

/-- The canonical header of 44 bytes, and the frames. -/
def riffBytes (w : Wav) : List UInt8 :=
  riffTag ++ leBytes 4 (36 + w.data.length) ++ waveFmtTag ++ leBytes 4 16 ++ leBytes 2 1 ++
    leBytes 2 w.nchannels.toNat ++ leBytes 4 w.framerate.toNat ++
    leBytes 4 (w.framerate.toNat * w.frameSize) ++ leBytes 2 w.frameSize ++
    leBytes 2 (8 * w.sampwidth) ++ dataTag ++ leBytes 4 w.data.length ++ w.data

def riffRead (bytes : List UInt8) : Except AudioError Wav :=
  let nchannels := UInt16.ofNat (ofLeBytes ((bytes.drop 22).take 2))
  let sampwidth := (ofLeBytes ((bytes.drop 34).take 2) + 7) / 8
  if bytes.take 4 ≠ riffTag then .error (.wave "file does not start with RIFF id")
  else if (bytes.drop 8).take 8 ≠ waveFmtTag then .error (.wave "not a WAVE file")
  else if h : 0 < nchannels.toNat ∧ 0 < sampwidth then
    .ok {
      nchannels := nchannels
      sampwidth := sampwidth
      framerate := UInt32.ofNat (ofLeBytes ((bytes.drop 24).take 4))
      data := bytes.drop 44
      nchannels_pos := h.1
      sampwidth_pos := h.2 }
  else .error (.wave "bad # of channels")

/-- Files with the frames in one piece after a header that has nothing else. -/
def riff : WaveModule where
  read := riffRead
  write w := if w.framerate = 0 then .error (.wave "bad frame rate") else .ok (riffBytes w)

lemma length_leBytes (width n : Nat) : (leBytes width n).length = width := by
  induction width generalizing n with
  | zero => rfl
  | succ width ih => rw [leBytes, List.length_cons, ih]

/-- A field that ends before it is passed over. -/
lemma drop_leBytes {width k : Nat} (h : width ≤ k) (n : Nat) : (leBytes width n).drop k = [] :=
  List.drop_eq_nil_of_le ((length_leBytes width n).trans_le h)

/-- The fields of a file are where they are read. -/
lemma riffBytes_fields (w : Wav) :
    (riffBytes w).take 4 = riffTag ∧ ((riffBytes w).drop 8).take 8 = waveFmtTag ∧
      ((riffBytes w).drop 22).take 2 = leBytes 2 w.nchannels.toNat ∧
        ((riffBytes w).drop 24).take 4 = leBytes 4 w.framerate.toNat ∧
          ((riffBytes w).drop 34).take 2 = leBytes 2 (8 * w.sampwidth) ∧
            (riffBytes w).drop 44 = w.data := by
  refine ⟨?_, ?_, ?_, ?_, ?_, ?_⟩ <;>
    simp [riffBytes, riffTag, waveFmtTag, dataTag, List.drop_append, length_leBytes, drop_leBytes]

lemma riff_roundTrips : riff.RoundTrips := by
  intro w hw
  obtain ⟨hriff, hwave, hchannels, hframes, hbits, hdata⟩ := riffBytes_fields w
  have hrate : w.framerate ≠ 0 := by
    intro h
    exact absurd (h ▸ hw.framerate) (by decide)
  have hnchannels : UInt16.ofNat (ofLeBytes (((riffBytes w).drop 22).take 2)) = w.nchannels := by
    rw [hchannels, ofLeBytes_two w.nchannels.toNat_lt, UInt16.ofNat_toNat]
  have hframerate : UInt32.ofNat (ofLeBytes (((riffBytes w).drop 24).take 4)) = w.framerate := by
    rw [hframes, ofLeBytes_four w.framerate.toNat_lt, UInt32.ofNat_toNat]
  have hwidth : (ofLeBytes (((riffBytes w).drop 34).take 2) + 7) / 8 = w.sampwidth := by
    rw [hbits, hw.sampwidth, ofLeBytes_two (by decide)]
  have hwrite : riff.write w = .ok (riffBytes w) := by
    dsimp only [riff]
    rw [if_neg hrate]
  refine ⟨riffBytes w, hwrite, ?_⟩
  dsimp only [riff, riffRead]
  simp only [hnchannels, hframerate, hwidth, hdata, hriff, hwave, ne_eq, not_true_eq_false, if_false]
  rw [dif_pos ⟨w.nchannels_pos, w.sampwidth_pos⟩]

/-- A track of three samples and one of one. -/
theorem combine_split_riff :
    (do
      let combined ← combineStereo riff (← riff.write (mono 8000 [1, -2, 300]))
        (← riff.write (mono 8000 [7]))
      decodeWav riff combined [(0, "caller"), (1, "agent")]) =
    .ok ⟨[("caller", [1, -2, 300]), ("agent", [7, 0, 0])], 8000, 3⟩ :=
  (combine_split_lossless riff_roundTrips).1 8000 [1, -2, 300] [7] (by decide)

end Pulse.Core.Audio
