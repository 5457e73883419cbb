import NeuStack.ChunkedCoding
import NeuStack.HttpDelivered

/-! # Streams of unknown size

A stream whose generator does not know its size is announced as chunked, and `send_next_chunk` sends
its chunks as they are.  What follows the header is a prefix of the chunks, never a chunked body of
them (`HttpServer.stream_not_chunked`).
-/
namespace NeuStack
open ChunkedCoding (ChunkedBody)

namespace HttpServer
variable {s : HttpServer} {u : Surroundings} {g : ChunkedResponse} {request : HttpRequest} {k : Nat}

/-- Whether a request asks for the connection to be kept. -/
def keepsAlive (request : HttpRequest) : Bool :=
  request.headers.get (ascii "Connection") ≠ ascii "close"

/-- The request that is dispatched at `k` is answered with the stream of `g`. -/
structure Streams (s : HttpServer) (log : List HttpEvent) (k : Nat) (request : HttpRequest)
    (g : ChunkedResponse) : Prop where
  dispatched : log[k]? = some (.dispatch request)
  generator :
    s.generatorFor { log := log.take k : HttpConnection }.dispatched.length request = some g

/-- A header that announces chunked coding, and no length. -/
def announcing (g : ChunkedResponse) (keepAlive : Bool) : Bytes :=
  ascii "HTTP/1.1 200 OK" ++ crlf ++ ascii "Content-Type: " ++ g.contentType ++ crlf ++
    ascii "Cache-Control: no-cache" ++ crlf ++ (ascii "Transfer-Encoding: chunked" ++ crlf) ++
    (if keepAlive then [] else ascii "Connection: close" ++ crlf) ++ crlf

/-- What was accepted behind the header of the stream when the log was `j` events long. -/
def behindHeader (log : List HttpEvent) (r : StartedResponse) (g : ChunkedResponse)
    (request : HttpRequest) (j : Nat) : Bytes :=
  (r.acceptedBy log j).drop (announcing g (keepsAlive request)).length

/-- A stream of unknown size is its header and its chunks. -/
theorem Streams.answer_eq {log : List HttpEvent} (h : Streams s log k request g)
    (hunknown : g.totalSize = 0) : s.answerAt u log k request =
      announcing g (keepsAlive request) ++ g.chunks.flatten := by
  have hheader : chunkedHeader g (keepsAlive request) = announcing g (keepsAlive request) := by
    rw [chunkedHeader, if_neg (by omega), announcing]
  rw [answerAt, answer, h.generator, ← hheader]
  rfl

/-- **Streams of unknown size are chunked coding**: once the last response has been sent, and is
such a stream, what follows its header is a chunked body of the chunks. -/
def CodesStreams (s : HttpServer) (u : Surroundings) (xs : List Input) : Prop :=
  ∀ k request g, Streams s (GuardedRun.run (s.step u) {} xs).log k request g → g.totalSize = 0 →
    ∀ before r, (s.traced u xs).started = before ++ [r] → r.position = k →
      (∃ st, (GuardedRun.run (s.step u) {} xs).state = some st ∧ NothingPending st) →
      ChunkedBody (behindHeader (GuardedRun.run (s.step u) {} xs).log r g request
        (GuardedRun.run (s.step u) {} xs).log.length) g.chunks.flatten

/-- **A stream of unknown size is never chunked coding**: in whatever run, up to the start of the
next response, what was accepted behind the header is a prefix of the chunks, and no chunked body of
them. -/
theorem stream_not_chunked (s : HttpServer) (u : Surroundings) (xs : List Input)
    (hstream : Streams s (GuardedRun.run (s.step u) {} xs).log k request g)
    (hunknown : g.totalSize = 0) :
    ∃ before r after, (s.traced u xs).started = before ++ r :: after ∧ r.position = k ∧
      r.bytes = announcing g (keepsAlive request) ++ g.chunks.flatten ∧
      ∀ j, (∀ next ∈ after.head?, j ≤ next.position) →
        behindHeader (GuardedRun.run (s.step u) {} xs).log r g request j <+: g.chunks.flatten ∧
        ¬ ChunkedBody (behindHeader (GuardedRun.run (s.step u) {} xs).log r g request j)
          g.chunks.flatten := by
  have hdelivered := delivered s u xs
  have hstarts := hdelivered.answered k request hstream.dispatched
  rw [hstream.answer_eq hunknown] at hstarts
  obtain ⟨before, after, hstarted⟩ := List.append_of_mem hstarts
  refine ⟨before, _, after, hstarted, rfl, rfl, fun j hj => ?_⟩
  have hwithin := (hdelivered.each before _ after hstarted j hj).drop
    (announcing g (keepsAlive request)).length
  rw [List.drop_left] at hwithin
  exact ⟨hwithin, fun hbody => absurd hbody.length_lt (Nat.not_lt.mpr hwithin.length_le)⟩

/-- A stream of five bytes, of which the generator does not say how many they are. -/
def hello : ChunkedResponse := ⟨0, ascii "text/plain", [ascii "hello"]⟩

def helloServer : HttpServer := ({} : HttpServer).getChunked (ascii "/") fun _ _ => some hello

def helloRequest : HttpRequest := { method := .get, path := ascii "/", version := ascii "HTTP/1.1" }

def helloInputs : List Input := [.receive (ascii "GET / HTTP/1.1\r\n\r\n")]

theorem hello_streams : Streams helloServer
    (GuardedRun.run (helloServer.step { accept := fun _ => 1000 }) {} helloInputs).log 0
    helloRequest hello :=
  ⟨by decide +kernel, by decide +kernel⟩

theorem hello_not_chunked :
    ∃ before r after, (helloServer.traced { accept := fun _ => 1000 } helloInputs).started =
        before ++ r :: after ∧ r.position = 0 ∧
      r.bytes = announcing hello (keepsAlive helloRequest) ++ hello.chunks.flatten ∧
      ∀ j, (∀ next ∈ after.head?, j ≤ next.position) →
        behindHeader (GuardedRun.run (helloServer.step { accept := fun _ => 1000 }) {}
          helloInputs).log r hello helloRequest j <+: hello.chunks.flatten ∧
        ¬ ChunkedBody (behindHeader (GuardedRun.run (helloServer.step { accept := fun _ => 1000 })
          {} helloInputs).log r hello helloRequest j) hello.chunks.flatten :=
  stream_not_chunked helloServer { accept := fun _ => 1000 } helloInputs hello_streams rfl

/-- **The five bytes are sent as they are.** -/
theorem hello_raw : ¬ CodesStreams helloServer { accept := fun _ => 1000 } helloInputs := by
  intro hcodes
  have hbody := hcodes 0 helloRequest hello hello_streams rfl []
    ⟨0, announcing hello true ++ ascii "hello"⟩ (by decide +kernel) rfl
    ⟨{ chunkedHeaderSent := true }, by decide +kernel, rfl, rfl⟩
  have hraw : behindHeader (GuardedRun.run (helloServer.step { accept := fun _ => 1000 }) {}
      helloInputs).log ⟨0, announcing hello true ++ ascii "hello"⟩ hello helloRequest
      (GuardedRun.run (helloServer.step { accept := fun _ => 1000 }) {} helloInputs).log.length =
        ascii "hello" := by
    decide +kernel
  rw [hraw] at hbody
  exact absurd hbody.length_lt (by decide)

end HttpServer
end NeuStack
