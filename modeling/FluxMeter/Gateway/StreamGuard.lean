import FluxMeter.Collections.Framing
import FluxMeter.Gateway.ProxiedCompletion
import FluxMeter.Pricing.PricingLoader
import FluxMeter.Wire.PythonText
import FluxMeter.Wire.Utf8

/-! `stream_guard.py` on the bytes of the upstream. What it does depends on the text that the chunks
decode to, not on how they cut it. -/
namespace FluxMeter.Gateway
open Collections FluxMeter.Custody FluxMeter.Wire

/-- The `json` module: `loads`, which is none where it raises `JSONDecodeError`, and `dumps` with its
default arguments, which writes what `loads` has read as one line of printable ASCII. -/
structure JsonModule where
  loads : List Char → Option Json
  dumps : Json → List Char
  loads_done : loads "[DONE]".toList = none
  loads_dumps : ∀ text value, loads text = some value → loads (dumps value) = some value
  printable : ∀ text value, loads text = some value →
    ∀ c ∈ dumps value, 32 ≤ c.toNat ∧ c.toNat ≤ 126
  trimmed : ∀ text value, loads text = some value →
    (dumps value).head? ≠ some ' ' ∧ (dumps value).getLast? ≠ some ' '

/-! ### Text -/

def dataPrefix : List Char := "data:".toList

def doneMarker : List Char := "[DONE]".toList

/-- The lines of `block.split("\n")` that start with `data:`. -/
def dataLines (block : List Char) : List (List Char) :=
  (block.splitOn '\n').filter fun line => dataPrefix.isPrefixOf line

/-! ### The guard -/

/-- The `StreamUsage` of the source, with the chunks that it counts. -/
structure GuardUsage extends StreamUsage where
  chunks : ℕ := 0

structure StreamGuard where
  py : Python
  json : JsonModule
  catalog : Pricing.Loader.PricingCatalog
  model : String
  reservedUsd : ℚ

/-- What the generator has yielded, its usage, and how it stands. -/
structure StreamResult where
  yielded : List (List UInt8) := []
  usage : GuardUsage := {}
  exit : Exit := .goesOn

/-- The same output bytes, usage and kill decision. -/
def StreamResult.Same (r r' : StreamResult) : Prop :=
  r.yielded.flatten = r'.yielded.flatten ∧ r.usage = r'.usage ∧ r.exit = r'.exit

namespace StreamGuard
variable (g : StreamGuard)

/-- The quote of the usage so far. -/
def estimate (u : GuardUsage) : Option ℚ :=
  g.catalog.quoteUsd g.model { inputTokens := u.inputTokens, outputTokens := u.outputTokens }

/-- The lines that `_process_block` rebuilds from the `data:` lines. -/
def rebuild : GuardUsage → List (List Char) → GuardUsage × Exit × List (List Char)
  | u, [] => (u, .goesOn, [])
  | u, line :: lines =>
    let payload := strip (line.drop 5)
    let kept := rebuild u lines
    if payload = doneMarker then (kept.1, kept.2.1, line :: kept.2.2)
    else
      match g.json.loads payload with
      | none => (kept.1, kept.2.1, line :: kept.2.2)
      | some chunk =>
        match noteChunk g.py u.toStreamUsage chunk with
        | (noted, goesOn) =>
          let counted : GuardUsage := { toStreamUsage := noted, chunks := u.chunks + 1 }
          if goesOn = false then (counted, .raised, [])
          else
            match g.estimate counted with
            | none => (counted, .raised, [])
            | some est =>
              if 0 < g.reservedUsd ∧ g.reservedUsd < est then
                ({ counted with killed := true }, .killed, [])
              else
                let rest := rebuild counted lines
                (rest.1, rest.2.1, (dataPrefix ++ ' ' :: g.json.dumps chunk) :: rest.2.2)

/-- `_process_block`; the text is what it returns where it goes on. -/
def processBlock (u : GuardUsage) (block : List Char) : GuardUsage × Exit × List Char :=
  if dataLines block = [] then
    (u, .goesOn, if strip block = [] then [] else block ++ ['\n', '\n'])
  else
    let r := g.rebuild u (dataLines block)
    (r.1, r.2.1, ['\n'].intercalate r.2.2 ++ ['\n', '\n'])

def killError (u : GuardUsage) (meteredUsd : ℚ) : Json :=
  .obj [("error", .obj [
    ("message", .str "stream killed: estimated cost exceeds reserved hold"),
    ("type", .str "fluxmeter_budget"),
    ("code", .str "stream_killed"),
    ("fluxmeter", .obj [("input_tokens", .num u.inputTokens), ("output_tokens", .num u.outputTokens),
      ("metered_usd", .float meteredUsd), ("reserved_usd", .float g.reservedUsd)])])]

/-- `_kill_sse`. -/
def killSse (u : GuardUsage) : Option (List Char) :=
  (g.estimate u).map fun meteredUsd =>
    dataPrefix ++ ' ' :: g.json.dumps (g.killError u meteredUsd) ++
      "\n\ndata: [DONE]\n\n".toList

/-- One block of the loops in `transform`. -/
def block (r : StreamResult) (text : List Char) : StreamResult :=
  if r.exit = .goesOn then
    match g.processBlock r.usage text with
    | (u, .goesOn, out) =>
      { r with usage := u, yielded := if out = [] then r.yielded else r.yielded ++ [Utf8.encode out] }
    | (u, .raised, _) => { r with usage := u, exit := .raised }
    | (u, .killed, _) =>
      match g.killSse u with
      | none => { r with usage := u, exit := .raised }
      | some out => { usage := u, exit := .killed, yielded := r.yielded ++ [Utf8.encode out] }
  else r

/-- A chunk of the upstream: it is decoded on its own, and the blocks that it completes are taken off
the buffer, which comes first. -/
def receive (s : List Char × StreamResult) (raw : List UInt8) : List Char × StreamResult :=
  feed '\n' (fun r => r.exit ≠ .goesOn) g.block s (Utf8.decode raw)

def finish (s : List Char × StreamResult) : StreamResult :=
  if s.2.exit = .goesOn ∧ strip s.1 ≠ [] then g.block s.2 s.1 else s.2

/-- `transform`. -/
def transform (upstream : List (List UInt8)) : StreamResult :=
  g.finish (upstream.foldl g.receive ([], {}))

/-- The chunks that are read: none after a kill or an exception. -/
def readChunks : List Char × StreamResult → List (List UInt8) → List (List UInt8)
  | _, [] => []
  | s, raw :: upstream =>
    if s.2.exit = .goesOn then raw :: readChunks (g.receive s raw) upstream else []

/-- The blocks of a text, and its open part, taken one after another. -/
def readText (text : List Char) : StreamResult :=
  g.finish ((frames '\n' text).2, (frames '\n' text).1.foldl g.block {})

variable {g}

theorem block_stopped (r : StreamResult) (text : List Char)
    (h : decide (r.exit ≠ .goesOn) = true) : g.block r text = r := by
  unfold block
  rw [if_neg (of_decide_eq_true h)]

theorem finish_of_exit {s s' : List Char × StreamResult} (hresult : s.2 = s'.2)
    (hbuffer : s.2.exit = .goesOn → s.1 = s'.1) : g.finish s = g.finish s' := by
  unfold finish
  rw [← hresult]
  by_cases h : s.2.exit = .goesOn
  · rw [hbuffer h]
  · rw [if_neg fun hand => h hand.1, if_neg fun hand => h hand.1]

theorem foldl_receive (chunks : List (List UInt8)) (s : List Char × StreamResult) :
    chunks.foldl g.receive s = (chunks.map Utf8.decode).foldl
      (feed '\n' (fun r => r.exit ≠ .goesOn) g.block) s := by
  rw [List.foldl_map]
  rfl

/-- What the chunks leave is what the blocks of their text leave. -/
theorem receive_chunks (chunks : List (List UInt8)) :
    (chunks.foldl g.receive ([], {})).2 =
        (frames '\n' (chunks.flatMap Utf8.decode)).1.foldl g.block {} ∧
      ((chunks.foldl g.receive ([], {})).2.exit = .goesOn →
        (chunks.foldl g.receive ([], {})).1 = (frames '\n' (chunks.flatMap Utf8.decode)).2) := by
  have hopen : frames '\n' [] = ([], []) := rfl
  obtain ⟨hread, hrest⟩ := foldl_feed block_stopped (chunks.map Utf8.decode) hopen {}
  rw [foldl_receive, List.flatMap_def]
  refine ⟨hread, fun hexit => hrest ?_⟩
  rw [decide_eq_false_iff_not, not_not]
  exact hexit

/-- The guard does to its chunks what it does to the text that they decode to. -/
theorem transform_eq (upstream : List (List UInt8)) :
    g.transform upstream = g.readText (upstream.flatMap Utf8.decode) :=
  finish_of_exit (receive_chunks upstream).1 (receive_chunks upstream).2

theorem readChunks_append (s : List Char × StreamResult) (upstream : List (List UInt8)) :
    ∃ unread, upstream = g.readChunks s upstream ++ unread ∧
      (unread = [] ∨ ((g.readChunks s upstream).foldl g.receive s).2.exit ≠ .goesOn) := by
  induction upstream generalizing s with
  | nil => exact ⟨[], rfl, .inl rfl⟩
  | cons raw upstream ih =>
    unfold readChunks
    split_ifs with hexit
    · obtain ⟨unread, hall, hstopped⟩ := ih (g.receive s raw)
      refine ⟨unread, ?_, hstopped⟩
      rw [List.cons_append, ← hall]
    · exact ⟨raw :: upstream, rfl, .inr hexit⟩

/-- Whatever follows the bytes that stopped the guard, and however they end, it has read the blocks
before. -/
private theorem frames_decode_append (bytes rest : List UInt8) :
    ∃ later, (frames '\n' (Utf8.decode (bytes ++ rest))).1 =
      (frames '\n' (Utf8.decode bytes)).1 ++ later := by
  have hflush : '\n' ∉ Utf8.flush (Utf8.after none bytes) := by
    cases Utf8.after none bytes with
    | none => exact List.not_mem_nil
    | some p =>
      show '\n' ∉ [Utf8.replacement]
      decide
  have hbytes : (frames '\n' (Utf8.decode bytes)).1 = (frames '\n' (Utf8.written none bytes)).1 := by
    rw [Utf8.decode, Utf8.decodeFrom_eq, frames_append_of_not_mem _ hflush]
  rw [hbytes, (Utf8.decode_append bytes rest).1, frames_append]
  exact ⟨_, rfl⟩

/-- Where no cut falls inside a character before the guard stops, it reads the text of all bytes. -/
theorem transform_of_read (upstream : List (List UInt8))
    (hwhole : Utf8.Whole (g.readChunks ([], {}) upstream)) :
    g.transform upstream = g.readText (Utf8.decode upstream.flatten) := by
  obtain ⟨unread, hall, hstopped⟩ := g.readChunks_append ([], {}) upstream
  rcases hstopped with rfl | hstopped
  · rw [List.append_nil] at hall
    rw [transform_eq, ← (Utf8.decode_pieces upstream).mpr (hall ▸ hwhole)]
  · have hread := (receive_chunks (g := g) (g.readChunks ([], {}) upstream)).1
    rw [(Utf8.decode_pieces _).mpr hwhole] at hread
    obtain ⟨later, hlater⟩ := frames_decode_append (g.readChunks ([], {}) upstream).flatten
      unread.flatten
    generalize g.readChunks ([], {}) upstream = chunks at hall hstopped hread hlater
    subst hall
    have hquiet : decide ((chunks.foldl g.receive ([], {})).2.exit ≠ .goesOn) = true :=
      decide_eq_true hstopped
    have hblocks : (frames '\n' (Utf8.decode (chunks ++ unread).flatten)).1.foldl g.block {} =
        (chunks.foldl g.receive ([], {})).2 := by
      rw [List.flatten_append, hlater, List.foldl_append, ← hread]
      exact foldl_take_stopped block_stopped hquiet later
    have hchunks : (chunks ++ unread).foldl g.receive ([], {}) =
        chunks.foldl g.receive ([], {}) := by
      rw [List.foldl_append, foldl_receive unread]
      exact foldl_feed_stopped hquiet _
    unfold transform readText
    rw [hchunks, hblocks]
    exact finish_of_exit rfl fun hexit => absurd hexit hstopped

/-- Two ways of cutting the upstream make no difference, if neither cuts inside a character before
the guard stops. -/
theorem transform_of_whole (g : StreamGuard) (upstream upstream' : List (List UInt8))
    (h : upstream.flatten = upstream'.flatten)
    (hwhole : Utf8.Whole (g.readChunks ([], {}) upstream))
    (hwhole' : Utf8.Whole (g.readChunks ([], {}) upstream')) :
    (g.transform upstream).Same (g.transform upstream') := by
  rw [transform_of_read upstream hwhole, transform_of_read upstream' hwhole', h]
  exact ⟨rfl, rfl, rfl⟩

end StreamGuard

/-! ### A guard on a small stream -/

def helloChunk : Json :=
  .obj [("choices", .arr [.obj [("delta", .obj [("content", .str "hello")])]])]

def helloText : List Char :=
  "\x7b\"choices\": [\x7b\"delta\": \x7b\"content\": \"hello\"\x7d\x7d]\x7d".toList

/-- The `json` module on the text of one chunk. -/
def JsonModule.onHello : JsonModule where
  loads text := if text = helloText then some helloChunk else none
  dumps _ := helloText
  loads_done := by decide
  loads_dumps text value h := by
    split_ifs at h
    rw [if_pos rfl]
    exact h
  printable _ _ _ := by
    have hall : helloText.all (fun c => decide (32 ≤ c.toNat ∧ c.toNat ≤ 126)) = true := rfl
    simpa using hall
  trimmed _ _ _ := by decide

/-- A guard with a hold of four millionths at three dollars per million output tokens. -/
def StreamGuard.onHello : StreamGuard where
  py := .ofEventId
  json := .onHello
  catalog := ⟨[], ⟨.flat 1 3 (1 / 10), fun hne => absurd rfl hne, List.forall_mem_nil _, by decide +kernel⟩,
    [], 1 / 2⟩
  model := "gpt-4o"
  reservedUsd := 4 / 1000000

/-- The comment `: é` in UTF-8, and an empty line. -/
def commentBytes : List UInt8 := [0x3A, 0x20, 0xC3, 0xA9, 0x0A, 0x0A]

/-- The second chunk is over the hold, so that the bytes of `é` behind it may come apart. -/
theorem StreamGuard.transform_of_whole_comment :
    let line := "data: ".toList ++ helloText ++ "\n\n".toList
    let bytes := Utf8.encode line
    (StreamGuard.onHello.transform [commentBytes, bytes, bytes, [0xC3], [0xA9]]).exit = .killed ∧
    (StreamGuard.onHello.transform [commentBytes, bytes, bytes, [0xC3], [0xA9]]).Same
      (StreamGuard.onHello.transform [commentBytes.take 2, commentBytes.drop 2 ++ bytes ++ bytes ++
        [0xC3, 0xA9]]) := by
  intro line bytes
  have hwhole : Utf8.Whole
      (StreamGuard.onHello.readChunks ([], {}) [commentBytes, bytes, bytes, [0xC3], [0xA9]]) :=
    (Utf8.decode_pieces _).mp (by decide +kernel)
  have hwhole' : Utf8.Whole (StreamGuard.onHello.readChunks ([], {}) [commentBytes.take 2,
      commentBytes.drop 2 ++ bytes ++ bytes ++ [0xC3, 0xA9]]) :=
    (Utf8.decode_pieces _).mp (by decide +kernel)
  exact ⟨by decide +kernel, StreamGuard.transform_of_whole _ _ _ (by decide +kernel) hwhole hwhole'⟩

/-- A cut between the two bytes of `é` yields two replacement characters in its place. -/
theorem not_same_of_flatten :
    ¬ ∀ (g : StreamGuard) (upstream upstream' : List (List UInt8)),
      upstream.flatten = upstream'.flatten →
        (g.transform upstream).Same (g.transform upstream') := by
  intro h
  have hsame := (h StreamGuard.onHello [commentBytes]
    [commentBytes.take 3, commentBytes.drop 3] rfl).1
  revert hsame
  decide +kernel

end FluxMeter.Gateway
