import Mathlib.Data.List.DropRight
import Pulse.Lib.Frames
import Pulse.Lib.JsonText

/-!
# Event streams

The server-sent events of the API (`_sse` and the keep-alives of `api/chat.py`, `api/call_chat.py`,
`api/boards.py` and `api/backfill.py`), and the loop of `api.ts` that reads them from a response
body (`_streamSSE`, `streamBoards`, `streamBackfill`).
-/

namespace Pulse

open Lib (Json FloatText dumps framed readChunk)

universe u

/-! ### The generators -/

namespace Api

/-- What a generator yields: an event, by the entries of its `dict`, or a heartbeat. -/
inductive Yielded
  | event (fields : List (String × Json FloatText))
  | keepAlive

/-- `_sse` -/
def sse (fields : List (String × Json FloatText)) : List Char :=
  ['d', 'a', 't', 'a', ':', ' '] ++ dumps (.obj fields) ++ ['\n', '\n']

namespace Yielded

def text : Yielded → List Char
  | .event fields => sse fields
  | .keepAlive => ": keep-alive\n\n".toList

/-- What `json.dumps` writes of an event. -/
def json? : Yielded → Option (List Char)
  | .event fields => some (dumps (.obj fields))
  | .keepAlive => none

end Yielded

/-- The body of the response. All of it is ASCII, so that its bytes are its characters. -/
def body (ys : List Yielded) : List Char := ys.flatMap Yielded.text

end Api

/-! ### The reader -/

namespace Ui

/-- The white space and the line terminators that `trim` takes away. -/
def isSpace (c : Char) : Bool :=
  c ∈ ['\t', '\n', '\x0b', '\x0c', '\r', ' ', '\u00a0', '\u1680', '\u2028', '\u2029', '\u202f',
    '\u205f', '\u3000', '\ufeff'] || ('\u2000' ≤ c && c ≤ '\u200a')

def trim (s : List Char) : List Char := (s.dropWhile isSpace).rdropWhile isSpace

/-- `chunk.split("\n").find((l) => l.startsWith("data:"))` -/
def dataLine (chunk : List Char) : Option (List Char) :=
  (chunk.splitOn '\n').find? fun l => ['d', 'a', 't', 'a', ':'].isPrefixOf l

/-- What `onEvent` was called with, and whether `JSON.parse` has thrown, which ends the loop. -/
structure Reading (ε : Type u) where
  events : List ε
  thrown : Bool

variable {ε : Type u} (parse : List Char → Option ε)

/-- `onEvent(JSON.parse(line.slice(5).trim()))`, if there is a line. -/
def onChunk (r : Reading ε) (chunk : List Char) : Reading ε :=
  if r.thrown then r else
    match dataLine chunk with
    | none => r
    | some line =>
      match parse (trim (line.drop 5)) with
      | none => { r with thrown := true }
      | some e => { r with events := r.events ++ [e] }

/-- The loop over what `reader.read()` gives: `buf.split("\n\n")`, and its last part kept. -/
def readStream (reads : List (List Char)) : Reading ε :=
  (reads.foldl (readChunk ['\n', '\n'] (onChunk parse)) (⟨[], false⟩, [])).1

/-- Each text is parsed, up to the first that cannot be. -/
def parseEach : List (List Char) → Reading ε
  | [] => ⟨[], false⟩
  | text :: texts =>
    match parse text with
    | none => ⟨[], true⟩
    | some e => ⟨e :: (parseEach texts).events, (parseEach texts).thrown⟩

/-! ### What is read -/

lemma dumps_obj (fields : List (String × Json FloatText)) :
    dumps (.obj fields) = '{' :: Lib.commaJoin (Lib.dumpsFields fields) ++ ['}'] := by
  rw [dumps]

lemma newline_notMem_dumps (v : Json FloatText) : '\n' ∉ dumps v := by
  intro hmem
  exact absurd (Lib.printable_dumps v _ hmem) (by decide)

lemma trim_dumps (fields : List (String × Json FloatText)) :
    trim (' ' :: dumps (.obj fields)) = dumps (.obj fields) := by
  rw [trim, dumps_obj, List.dropWhile_cons_of_pos (by decide), List.cons_append,
    List.dropWhile_cons_of_neg (by decide), ← List.cons_append,
    List.rdropWhile_concat_neg _ _ _ (by decide)]

/-- The line of a yield, without the line breaks behind it. -/
def line : Api.Yielded → List Char
  | .event fields => ['d', 'a', 't', 'a', ':', ' '] ++ dumps (.obj fields)
  | .keepAlive => ": keep-alive".toList

lemma text_eq_line (y : Api.Yielded) : y.text = line y ++ ['\n', '\n'] := by
  cases y with
  | event fields => rfl
  | keepAlive => decide

lemma body_eq_framed (ys : List Api.Yielded) :
    Api.body ys = framed ['\n', '\n'] (ys.map line) := by
  rw [Api.body, framed, List.flatMap_map]
  exact congrArg ys.flatMap (funext text_eq_line)

lemma newline_notMem_line (y : Api.Yielded) : '\n' ∉ line y := by
  cases y with
  | event fields =>
    intro hmem
    obtain hmem | hmem := List.mem_append.1 hmem
    · exact absurd hmem (by decide)
    · exact newline_notMem_dumps _ hmem
  | keepAlive => decide

/-- A line without a line break in it is a frame: the two behind it are the first. -/
lemma isFrame_of_newline_notMem {l : List Char} (h : '\n' ∉ l) :
    Lib.IsFrame ['\n', '\n'] l := by
  intro hinfix
  have hdrop : (l ++ ['\n', '\n']).dropLast = l ++ ['\n'] := by
    rw [List.dropLast_append_of_ne_nil (by simp)]
    rfl
  rw [hdrop] at hinfix
  have hcount := hinfix.sublist.count_le '\n'
  rw [List.count_append, List.count_eq_zero.2 h] at hcount
  exact absurd hcount (by decide)

lemma dataLine_event (fields : List (String × Json FloatText)) :
    dataLine (line (.event fields)) = some (line (.event fields)) := by
  rw [dataLine, List.splitOn_eq_singleton (newline_notMem_line _)]
  rfl

lemma dataLine_keepAlive : dataLine (line .keepAlive) = none := by decide

section

variable {parse}

lemma onChunk_keepAlive (r : Reading ε) : onChunk parse r (line .keepAlive) = r := by
  rw [onChunk, dataLine_keepAlive]
  exact ite_id _

lemma onChunk_event (r : Reading ε) (fields : List (String × Json FloatText)) :
    onChunk parse r (line (.event fields)) =
      if r.thrown then r else
        match parse (dumps (.obj fields)) with
        | none => { r with thrown := true }
        | some e => { r with events := r.events ++ [e] } := by
  have hslice : trim ((line (.event fields)).drop 5) = dumps (.obj fields) := trim_dumps fields
  rw [onChunk, dataLine_event]
  simp only [hslice]

/-- A run over the lines parses the text of each event. -/
lemma foldl_onChunk (ys : List Api.Yielded) (r : Reading ε) (hr : r.thrown = false) :
    (ys.map line).foldl (onChunk parse) r =
      ⟨r.events ++ (parseEach parse (ys.filterMap Api.Yielded.json?)).events,
        (parseEach parse (ys.filterMap Api.Yielded.json?)).thrown⟩ := by
  have hstop (ys : List Api.Yielded) (r : Reading ε) (hr : r.thrown = true) :
      (ys.map line).foldl (onChunk parse) r = r := by
    induction ys with
    | nil => rfl
    | cons y ys ih => rw [List.map_cons, List.foldl_cons, onChunk, if_pos hr, ih]
  induction ys generalizing r with
  | nil =>
    rw [List.filterMap_nil, parseEach, List.append_nil, ← hr]
    rfl
  | cons y ys ih =>
    rw [List.map_cons, List.foldl_cons]
    cases y with
    | keepAlive => rw [onChunk_keepAlive, ih r hr, List.filterMap_cons_none rfl]
    | event fields =>
      have htexts : (Api.Yielded.event fields :: ys).filterMap Api.Yielded.json? =
          dumps (.obj fields) :: ys.filterMap Api.Yielded.json? := rfl
      rw [onChunk_event, if_neg (by simp [hr]), htexts, parseEach]
      cases parse (dumps (.obj fields)) with
      | none => simpa using hstop ys _ rfl
      | some e =>
        have hrest := ih ⟨r.events ++ [e], r.thrown⟩ hr
        rwa [List.append_assoc] at hrest

/-- However the body is divided into reads, and wherever it breaks off, `onEvent` is called for the
events whose frames have come completely, for each once and in their order. -/
theorem readStream_of_prefix (parse : List Char → Option ε) (ys : List Api.Yielded)
    (reads : List (List Char)) (h : reads.flatten <+: Api.body ys) :
    ∃ n ≤ ys.length,
      readStream parse reads = parseEach parse ((ys.take n).filterMap Api.Yielded.json?) ∧
        ∀ m ≤ ys.length, Api.body (ys.take m) <+: reads.flatten ↔ m ≤ n := by
  have hframes : ∀ frame ∈ ys.map line, Lib.IsFrame ['\n', '\n'] frame := by
    rintro _ hframe
    obtain ⟨y, -, rfl⟩ := List.mem_map.1 hframe
    exact isFrame_of_newline_notMem (newline_notMem_line y)
  rw [body_eq_framed] at h
  obtain ⟨n, hn, hcut, hwhole⟩ := Lib.cutAt_of_prefix (by simp) hframes h
  rw [List.length_map] at hn hwhole
  refine ⟨n, hn, ?_, fun m hm => ?_⟩
  · rw [readStream, Lib.readChunks_eq (by simp), hcut, ← List.map_take, foldl_onChunk _ _ rfl]
    rfl
  · rw [body_eq_framed, List.map_take]
    exact hwhole m hm

/-- A stream with a heartbeat between its events. -/
def beating : List Api.Yielded := [.event [("type", .str "progress")], .keepAlive, .event []]

/-- The first read ends in the middle of the heartbeat, the second in that of the last frame. -/
theorem readStream_of_prefix_beating :
    ∃ n ≤ 3, readStream some [(Api.body beating).take 30, ((Api.body beating).drop 30).take 20] =
        parseEach some ((beating.take n).filterMap Api.Yielded.json?) ∧
      ∀ m ≤ 3, Api.body (beating.take m) <+:
        [(Api.body beating).take 30, ((Api.body beating).drop 30).take 20].flatten ↔ m ≤ n :=
  readStream_of_prefix some beating _ (by decide)

end

end Ui

end Pulse
