import Orchestrator.Python.Number
import Orchestrator.Results

/-!
The one door out of a test run's network: it opens a tunnel to a destination of its command line,
carries there what the client sends after its `CONNECT`, and does nothing else.
-/

namespace Orchestrator.Qa.Egress

abbrev Text := List Char

abbrev Bytes := List UInt8

abbrev Destination := Text × Nat

/-- What the interpreter knows of letters and digits. Nothing is supposed of it. -/
structure Unicode where
  lower : Text → Text
  upper : Text → Text
  repr : Text → String
  -- a digit to `isdigit` that is no decimal digit, so that `int` raises on it
  superscript : Char → Bool

structure Refused where
  status : String
  detail : String

inductive Fault where
  | refused (refusal : Refused)
  | valueError

def defaultPort : Nat := 443

def maxRequestBytes : Nat := 8192

def relayChunk : Nat := 65536

def maxStrDigits : Nat := 4300

def Unicode.isdigit (u : Unicode) (text : Text) : Bool :=
  !text.isEmpty && text.all fun c => (Python.digitValue c).isSome || u.superscript c

/-- `int` of a text that `isdigit` accepts -/
def int (text : Text) : Except Fault Nat :=
  match text.mapM Python.digitValue with
  | some digits => if text.length ≤ maxStrDigits then .ok (Python.digitsValue digits) else .error .valueError
  | none => .error .valueError

/-- `text.rpartition(":")` without the colon: the host is empty where there is none. -/
def rpartition (text : Text) : Text × Text :=
  let port := (text.reverse.takeWhile (· ≠ ':')).reverse
  (text.take (text.length - port.length - 1), port)

def split (text : Text) : List Text := (text.splitOnP Python.isSpace).filter fun part => !part.isEmpty

section Handshake

variable (u : Unicode)

def readEntry (entry : Text) : Except Fault Destination :=
  let (host, port) := if (rpartition entry).1.isEmpty then (entry, (toString defaultPort).toList) else rpartition entry
  if host.isEmpty || !u.isdigit port then .error .valueError else (int port).map fun port => (u.lower host, port)

def parseAllowlist (entries : List Text) : Except Fault (List Destination) := do
  let allowed ← entries.mapM (readEntry u)
  if allowed.isEmpty then .error .valueError else .ok allowed

def methodNotAllowed (method : Text) : Refused :=
  ⟨"405 Method Not Allowed", s!"{String.ofList method} is not tunnelled here; this proxy speaks CONNECT only"⟩

def parseConnect (requestLine : Text) : Except Fault Destination :=
  match split requestLine with
  | method :: target :: _ =>
    if u.upper method ≠ "CONNECT".toList then .error (.refused (methodNotAllowed (u.upper method)))
    else
      let (host, port) := rpartition target
      if host.isEmpty || !u.isdigit port then .error (.refused ⟨"400 Bad Request", s!"{u.repr target} is not HOST:PORT"⟩)
      else (int port).map fun port => (u.lower host, port)
  | [method] => .error (.refused (methodNotAllowed (u.upper method)))
  | [] => .error (.refused (methodNotAllowed "(empty)".toList))

def authorize (allowed : List Destination) (destination : Destination) : Except Fault Unit :=
  if allowed.contains destination then .ok ()
  else .error (.refused ⟨"403 Forbidden", s!"{String.ofList destination.1}:{destination.2} is not a destination this QA run may reach; " ++
    "the deployment under test is reachable only through the capability endpoint"⟩)

def headerEnd : Bytes := [13, 10, 13, 10]

/-- `readuntil(b"\r\n\r\n")`: the header with its end, and what stays in the buffer -/
def readHeader : Bytes → Option (Bytes × Bytes)
  | [] => none
  | byte :: rest =>
    if headerEnd.isPrefixOf (byte :: rest) then some (headerEnd, rest.drop 3)
    else (readHeader rest).map fun read => (byte :: read.1, read.2)

def firstLine : Bytes → Bytes
  | 13 :: 10 :: _ => []
  | byte :: rest => byte :: firstLine rest
  | [] => []

def latin1 (bytes : Bytes) : Text := bytes.map fun byte => Char.ofNat byte.toNat

def headerTooLarge : Refused := ⟨"431 Request Header Fields Too Large", "header too large"⟩

/-- `none` while the header has not ended. A buffer over the stream's own limit of 65536 is refused
as a header over `maxRequestBytes` is. -/
def judge (allowed : List Destination) (inbox : Bytes) : Option (Except Fault (Destination × Bytes)) :=
  match readHeader inbox with
  | none => if inbox.length + 1 - headerEnd.length > 65536 then some (.error (.refused headerTooLarge)) else none
  | some (header, rest) =>
    if header.length > maxRequestBytes then some (.error (.refused headerTooLarge))
    else some do
      let destination ← parseConnect u (latin1 (firstLine header))
      authorize allowed destination
      return (destination, rest)

end Handshake

inductive Phase where
  | handshake
  | dialing (destination : Destination)
  | opened
  | closed
  deriving DecidableEq

/-- A client's connection, with all that has come in and gone out on either side of it -/
structure Conn where
  phase : Phase
  sent : Bytes
  inbox : Bytes
  upstream : Bytes
  answered : Bytes
  replies : Bytes
  received : Bytes
  refusals : List Refused
  dialed : Option Destination

/-- A relay or a client that stops is one that has no more events. -/
inductive Event where
  | fromClient (bytes : Bytes)
  | header
  | connected
  | unreachable (error : String)
  | fromUpstream (bytes : Bytes)
  | relayUp
  | relayDown

namespace Conn

def accepted : Conn := ⟨.handshake, [], [], [], [], [], [], [], none⟩

def refuse (c : Conn) (refusal : Refused) : Conn := { c with phase := .closed, refusals := c.refusals ++ [refusal] }

def greet (c : Conn) : Option (Except Fault (Destination × Bytes)) → Conn
  | none => c
  | some (.error (.refused refusal)) => c.refuse refusal
  | some (.error .valueError) => { c with phase := .closed }
  | some (.ok (destination, rest)) => { c with phase := .dialing destination, inbox := rest, dialed := some destination }

def step (u : Unicode) (allowed : List Destination) (c : Conn) : Event → Conn
  | .fromClient bytes => { c with sent := c.sent ++ bytes, inbox := c.inbox ++ bytes }
  | .header => if c.phase = .handshake then c.greet (judge u allowed c.inbox) else c
  | .connected =>
    match c.phase with
    | .dialing _ => { c with phase := .opened }
    | _ => c
  | .unreachable error =>
    match c.phase with
    | .dialing (host, port) => c.refuse ⟨"502 Bad Gateway", s!"{String.ofList host}:{port} did not answer: {error}"⟩
    | _ => c
  | .fromUpstream bytes =>
    if c.phase = .opened then { c with answered := c.answered ++ bytes, replies := c.replies ++ bytes } else c
  | .relayUp =>
    if c.phase = .opened then { c with upstream := c.upstream ++ c.inbox.take relayChunk, inbox := c.inbox.drop relayChunk }
    else c
  | .relayDown =>
    if c.phase = .opened then { c with received := c.received ++ c.replies.take relayChunk, replies := c.replies.drop relayChunk }
    else c

end Conn

/-- `main` with one client: what it does with any other is the same. -/
def serve (u : Unicode) (entries : List Text) (events : List Event) : Except Fault Conn := do
  let allowed ← parseAllowlist u entries
  return events.foldl (Conn.step u allowed) .accepted

/-- The upstream has had what followed the header, in order, as far as it is not in the buffer. -/
def Tunnel (u : Unicode) (allowed : List Destination) (c : Conn) (destination : Destination) : Prop :=
  destination ∈ allowed ∧ ∃ header, readHeader c.sent = some (header, c.upstream ++ c.inbox) ∧ header.length ≤ maxRequestBytes ∧
    parseConnect u (latin1 (firstLine header)) = .ok destination

structure Kept (u : Unicode) (allowed : List Destination) (c : Conn) : Prop where
  tunnel : ∀ destination ∈ c.dialed, Tunnel u allowed c destination
  undialed : c.dialed = none → c.inbox = c.sent ∧ (c.phase = .handshake ∨ c.phase = .closed)
  unopened : c.phase ≠ .opened → c.upstream = [] ∧ c.answered = []
  returned : c.received ++ c.replies = c.answered
  early : c.phase = .handshake → c.dialed = none

variable {u : Unicode} {allowed : List Destination} {c : Conn}

theorem length_readHeader {bytes : Bytes} (h : readHeader bytes ≠ none) : headerEnd.length ≤ bytes.length := by
  induction bytes with
  | nil => exact absurd rfl h
  | cons byte rest ih =>
    unfold readHeader at h
    split at h
    · next hend => exact (List.isPrefixOf_iff_prefix.mp hend).length_le
    · exact (ih (by simpa using h)).trans (Nat.le_succ _)

/-- What comes later does not move the end of the header. -/
theorem readHeader_append {bytes header rest : Bytes} (h : readHeader bytes = some (header, rest)) (more : Bytes) :
    readHeader (bytes ++ more) = some (header, rest ++ more) := by
  induction bytes generalizing header rest with
  | nil => cases h
  | cons byte bytes ih =>
    have hlong : headerEnd.length ≤ (byte :: bytes).length := length_readHeader (by simp [h])
    have hsame : headerEnd.isPrefixOf (byte :: bytes ++ more) = headerEnd.isPrefixOf (byte :: bytes) := by
      rw [Bool.eq_iff_iff, List.isPrefixOf_iff_prefix, List.isPrefixOf_iff_prefix]
      exact ⟨fun hend => List.prefix_of_prefix_length_le hend (List.prefix_append _ _) hlong,
        fun hend => hend.trans (List.prefix_append _ _)⟩
    rw [List.cons_append] at hsame ⊢
    unfold readHeader at h ⊢
    rw [hsame]
    split at h
    · next hend =>
      have hthree : 3 ≤ bytes.length := Nat.le_of_succ_le_succ hlong
      cases h
      rw [if_pos hend, List.drop_append_of_le_length hthree]
    · next hend =>
      simp only [Option.map_eq_some_iff, Prod.mk.injEq] at h
      obtain ⟨read, hread, rfl, rfl⟩ := h
      simp [hend, ih hread]

theorem mem_of_authorize {destination : Destination} (h : authorize allowed destination = .ok ()) : destination ∈ allowed := by
  unfold authorize at h
  split at h
  · next hlisted => exact List.contains_iff_mem.mp hlisted
  · cases h

/-- A destination that the handshake accepts is in the list, and the header named it. -/
theorem judge_ok {inbox rest : Bytes} {destination : Destination} (h : judge u allowed inbox = some (.ok (destination, rest))) :
    destination ∈ allowed ∧ ∃ header, readHeader inbox = some (header, rest) ∧ header.length ≤ maxRequestBytes ∧
      parseConnect u (latin1 (firstLine header)) = .ok destination := by
  unfold judge at h
  split at h
  · split at h <;> cases h
  · next header after hread =>
    split at h
    · cases h
    · next hshort =>
      simp only [Option.some.injEq] at h
      obtain ⟨named, hparse, h⟩ := bind_ok h
      obtain ⟨_, hgate, ⟨⟩⟩ := bind_ok h
      exact ⟨mem_of_authorize hgate, header, hread, by omega, hparse⟩

theorem Kept.refuse (h : Kept u allowed c) (hopen : c.phase ≠ .opened) (refusal : Refused) : Kept u allowed (c.refuse refusal) := by
  constructor
  · exact h.tunnel
  · exact fun hdialed => ⟨(h.undialed hdialed).1, .inr rfl⟩
  · exact fun _ => h.unopened hopen
  · exact h.returned
  · simp [Conn.refuse]

theorem Kept.greet (h : Kept u allowed c) (hphase : c.phase = .handshake) : Kept u allowed (c.greet (judge u allowed c.inbox)) := by
  have hundialed := h.early hphase
  have hunopened := h.unopened (by simp [hphase])
  unfold Conn.greet
  split
  · exact h
  · exact h.refuse (by simp [hphase]) _
  · constructor <;> simp [hundialed, (h.undialed hundialed).1, hunopened, h.returned]
  · next destination rest hjudge =>
    obtain ⟨hlisted, header, hinbox, hheader⟩ := judge_ok hjudge
    constructor
    · rintro _ ⟨⟩
      exact ⟨hlisted, header, by simp [← (h.undialed hundialed).1, hinbox, hunopened], hheader⟩
    all_goals simp [hunopened, h.returned]

theorem Kept.step (h : Kept u allowed c) (event : Event) : Kept u allowed (c.step u allowed event) := by
  cases event with
  | fromClient bytes =>
    constructor
    · intro destination hdialed
      obtain ⟨hlisted, header, hsent, hheader⟩ := h.tunnel destination hdialed
      exact ⟨hlisted, header, by simp [Conn.step, readHeader_append hsent], hheader⟩
    · intro hdialed
      simpa [Conn.step, (h.undialed hdialed).1] using (h.undialed hdialed).2
    all_goals simpa [Conn.step] using by first | exact h.unopened | exact h.returned | exact h.early
  | header =>
    simp only [Conn.step]
    split
    · next hphase => exact h.greet hphase
    · exact h
  | connected =>
    simp only [Conn.step]
    split
    · next destination hphase =>
      exact ⟨h.tunnel, fun hdialed => absurd (h.undialed hdialed).2 (by simp [hphase]), by simp, h.returned, by simp⟩
    · exact h
  | unreachable error =>
    simp only [Conn.step]
    split
    · next hphase => exact h.refuse (by simp [hphase]) _
    · exact h
  | fromUpstream _ | relayDown =>
    simp only [Conn.step]
    split
    · next hphase =>
      exact ⟨h.tunnel, h.undialed, fun hopen => absurd hphase hopen, by simp [← h.returned], h.early⟩
    · exact h
  | relayUp =>
    simp only [Conn.step]
    split
    · next hphase =>
      constructor
      · intro destination hdialed
        obtain ⟨hlisted, header, hsent, hheader⟩ := h.tunnel destination hdialed
        exact ⟨hlisted, header, by simp [hsent], hheader⟩
      · exact fun hdialed => absurd (h.undialed hdialed).2 (by simp [hphase])
      · exact fun hopen => absurd hphase hopen
      · exact h.returned
      · exact h.early
    · exact h

theorem Kept.foldl (h : Kept u allowed c) (events : List Event) : Kept u allowed (events.foldl (Conn.step u allowed) c) := by
  induction events generalizing c with
  | nil => exact h
  | cons event rest ih => exact ih (h.step event)

/-- A client's bytes go to a listed destination that its header names, from the header's end on. -/
theorem tunnels_only_allowed (u : Unicode) (entries : List Text) (events : List Event) {c : Conn} (h : serve u entries events = .ok c) :
    ∃ allowed, parseAllowlist u entries = .ok allowed ∧ Kept u allowed c := by
  obtain ⟨allowed, hallowed, ⟨⟩⟩ := bind_ok h
  have haccepted : Kept u allowed .accepted := by constructor <;> simp [Conn.accepted]
  exact ⟨allowed, hallowed, haccepted.foldl events⟩

section Example

def plainAscii : Unicode := ⟨Python.lowerAscii, List.map Char.toUpper, String.ofList, fun _ => false⟩

/-- The client greets and goes on in one packet, and the tunnel opens in the other letter case. -/
theorem packet_split :
    ∃ c, serve plainAscii ["a.b".toList] [.fromClient ("Connect A.b:443 1\r\n\r\nhi".toList.map Char.toUInt8), .header, .connected, .relayUp] = .ok c ∧
      c.upstream = [104, 105] ∧ ∃ allowed, parseAllowlist plainAscii ["a.b".toList] = .ok allowed ∧ Kept plainAscii allowed c :=
  ⟨_, rfl, by decide, tunnels_only_allowed _ _ _ rfl⟩

end Example

end Orchestrator.Qa.Egress
