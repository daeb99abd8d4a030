import Tssh.Framework.BigEndian
import Tssh.Framework.Stream

/-! # The Bus: Commands and Messages on One Stream

    Client and server exchange frames on the bus stream (`tsshd/proto.go`,
    `tsshd/bus.go`, `tsshd/client.go`).  A frame is a command, one length byte and its
    text, followed by a message, a four-byte length and its JSON encoding.

    * `sendCommand`, `sendMessage`, `sendCommandAndMessage`, `recvCommand` and
      `recvMessage`, over streams that are read and written in pieces.
    * The two loops that read the bus: `serverBus` and `clientBus`.  A handler is
      modelled by what it takes from the stream: the message it decodes, or the error.

    JSON is a parameter.  The effects of the handlers on sessions, keys and channels are
    not part of this module.
-/

open Go

namespace Bus

/-! ## Commands and messages -/

/-- `encoding/json`, for messages `Msg`.  The type a message is decoded into is given by
    `Kind`. -/
structure Json (Kind Msg : Type) where
  marshal : Msg → Option Bytes
  unmarshal : Kind → Bytes → Option Msg

inductive SendError where
  | commandEmpty
  | commandTooLong (command : Bytes)
  | marshalFailed
  | writeFailed
  deriving DecidableEq, Repr

inductive RecvError where
  | commandLength
  | commandBuffer
  | messageLength
  | messageBuffer
  | unmarshalFailed
  deriving DecidableEq, Repr

/-- The bytes of a command: `uint8(len(command))` and the command. -/
def commandBytes (command : Bytes) : Bytes := UInt8.ofNat command.length :: command

/-- The bytes of an encoded message: `uint32(len(msgBuf))` and the message. -/
def messageBytes (msgBuf : Bytes) : Bytes := putUint32 (UInt32.ofNat msgBuf.length) ++ msgBuf

/-- `writeAll`, with the error the callers wrap. -/
def write (stream : Writer) (buffer : Bytes) : Except SendError Unit × Writer :=
  match stream.writeAll buffer with
  | (true, stream) => (.ok (), stream)
  | (false, stream) => (.error .writeFailed, stream)

def sendCommand (stream : Writer) (command : Bytes) : Except SendError Unit × Writer :=
  if command.length = 0 then (.error .commandEmpty, stream)
  else if command.length > 255 then (.error (.commandTooLong command), stream)
  else write stream (commandBytes command)

variable {Kind Msg : Type} (json : Json Kind Msg)

def sendMessage (stream : Writer) (msg : Msg) : Except SendError Unit × Writer :=
  match json.marshal msg with
  | none => (.error .marshalFailed, stream)
  | some msgBuf => write stream (messageBytes msgBuf)

def sendCommandAndMessage (stream : Writer) (command : Bytes) (msg : Msg) :
    Except SendError Unit × Writer :=
  if command.length = 0 then (.error .commandEmpty, stream)
  else if command.length > 255 then (.error (.commandTooLong command), stream)
  else
    match json.marshal msg with
    | none => (.error .marshalFailed, stream)
    | some msgBuf => write stream (commandBytes command ++ messageBytes msgBuf)

def recvCommand (stream : Reader) : Except RecvError Bytes × Reader :=
  attempt (stream.read 1) .commandLength fun length stream =>
    attempt (stream.readFull (length.headD 0).toNat) .commandBuffer fun command stream =>
      (.ok command, stream)

def recvMessage (kind : Kind) (stream : Reader) : Except RecvError Msg × Reader :=
  attempt (stream.readFull 4) .messageLength fun lenBuf stream =>
    attempt (stream.readFull (uint32 lenBuf).toNat) .messageBuffer fun msgBuf stream =>
      attempt (json.unmarshal kind msgBuf, stream) .unmarshalFailed fun msg stream =>
        (.ok msg, stream)

/-! ## The bus loops -/

/-- The bytes of a Go string literal. -/
def text (s : String) : Bytes := s.toList.map (fun c => UInt8.ofNat c.toNat)

/-- The commands the server knows (`sshUdpServer.handleBusEvent`). -/
inductive ServerCommand where
  | exit | resize | close | alive | setting | rekey
  | unknown
  deriving DecidableEq, Repr

def serverCommand (command : Bytes) : ServerCommand :=
  if command = text "exit" then .exit
  else if command = text "resize" then .resize
  else if command = text "close" then .close
  else if command = text "alive" then .alive
  else if command = text "setting" then .setting
  else if command = text "rekey" then .rekey
  else .unknown

/-- The commands the client knows (`SshUdpClient.handleBusEvent`). -/
inductive ClientCommand where
  | quit | exit | debug | error | channel | alive | discard | rekey
  | unknown
  deriving DecidableEq, Repr

def clientCommand (command : Bytes) : ClientCommand :=
  if command = text "quit" then .quit
  else if command = text "exit" then .exit
  else if command = text "debug" then .debug
  else if command = text "error" then .error
  else if command = text "channel" then .channel
  else if command = text "alive" then .alive
  else if command = text "discard" then .discard
  else if command = text "rekey" then .rekey
  else .unknown

/-- What the loops do for one command: read its message and hand it to the handler of
    the command, or, for the server's `close`, end the loop.  `handleUnknownEvent` also
    reads one message, into an empty struct. -/
inductive Event (Kind Msg : Type) where
  | handled (command : Bytes) (kind : Kind) (msg : Except RecvError Msg)
  | closed
  deriving Repr

/-- A bus loop: read a command, stop unless the server is still the active one, and
    either end (`ends`) or read the message.  An error of a handler is only logged.
    `active i` is the answer of the active-server check for the `i`-th command. -/
def busLoop (kindOf : Bytes → Kind) (ends : Kind → Bool) (active : Nat → Bool) :
    Nat → Nat → Reader → List (Event Kind Msg)
  | 0, _, _ => []
  | rounds + 1, i, stream =>
    match recvCommand stream with
    | (.error _, _) => []
    | (.ok command, stream) =>
      if active i then
        if ends (kindOf command) then [.closed]
        else
          match recvMessage json (kindOf command) stream with
          | (msg, stream) =>
            .handled command (kindOf command) msg :: busLoop kindOf ends active rounds (i + 1) stream
      else []

/-- `sshUdpServer.handleBusEvent`.  Every round takes at least one byte. -/
def serverBus (json : Json ServerCommand Msg) (active : Nat → Bool) (stream : Reader) :
    List (Event ServerCommand Msg) :=
  busLoop json serverCommand (· == .close) active (stream.rest.length + 1) 0 stream

/-- `SshUdpClient.handleBusEvent`. -/
def clientBus (json : Json ClientCommand Msg) (stream : Reader) : List (Event ClientCommand Msg) :=
  busLoop json clientCommand (fun _ => false) (fun _ => true) (stream.rest.length + 1) 0 stream

/-! ## What is received is what was sent -/

theorem toNat_ofNat_length {bs : Bytes} (h : bs.length ≤ 255) :
    (UInt8.ofNat bs.length).toNat = bs.length := by
  rw [UInt8.toNat_ofNat']
  exact Nat.mod_eq_of_lt (by omega)

variable {stream : Reader} {t : Bytes}

theorem recvCommand_of_append {command t : Bytes} (hlen : command.length ≤ 255)
    (h : stream.rest = commandBytes command ++ t) :
    ∃ stream', recvCommand stream = (.ok command, stream') ∧ stream'.rest = t := by
  obtain ⟨s₁, hread, hrest⟩ := Reader.read_one h
  obtain ⟨s₂, hfull, ht⟩ := Reader.readFull_of_append hrest
  refine ⟨s₂, ?_, ht⟩
  rw [recvCommand, hread, attempt_some, List.headD_cons, toNat_ofNat_length hlen, hfull, attempt_some]

/-- A command that is cut off is an error, and nothing is left to read. -/
theorem recvCommand_of_short {command : Bytes} (hlen : command.length ≤ 255)
    (hpre : stream.rest <+: commandBytes command) (hne : stream.rest ≠ commandBytes command) :
    ∃ e stream', recvCommand stream = (.error e, stream') ∧ stream'.rest = [] := by
  match hs : stream.rest with
  | [] => exact ⟨.commandLength, .eof, by rw [recvCommand, Reader.read_eof hs, attempt_none], rfl⟩
  | b :: bs =>
    rw [hs] at hpre hne
    obtain ⟨rfl, hbs⟩ := List.cons_prefix_cons.mp hpre
    obtain ⟨s₁, hread, hrest⟩ := Reader.read_one hs
    have hlt : s₁.rest.length < command.length := by
      rw [hrest]
      rcases Nat.lt_or_ge bs.length command.length with hlt | hge
      · exact hlt
      · exact absurd (by rw [commandBytes, hbs.eq_of_length_le hge]) hne
    obtain ⟨s₂, hfull, hnil⟩ := Reader.readFull_of_short hlt
    refine ⟨.commandBuffer, s₂, ?_, hnil⟩
    rw [recvCommand, hread, attempt_some, List.headD_cons, toNat_ofNat_length hlen, hfull,
      attempt_none]

/-- What `recvMessage` makes of a message that arrived. -/
def decoded (kind : Kind) (msgBuf : Bytes) : Except RecvError Msg :=
  match json.unmarshal kind msgBuf with
  | none => .error .unmarshalFailed
  | some msg => .ok msg

theorem uint32_length {bs : Bytes} (h : bs.length < 2 ^ 32) :
    (UInt32.ofNat bs.length).toNat = bs.length := by
  rw [UInt32.toNat_ofNat']
  exact Nat.mod_eq_of_lt h

/-- **A message is read to its end** whether it decodes or not. -/
theorem recvMessage_of_append (kind : Kind) {msgBuf t : Bytes} (hlen : msgBuf.length < 2 ^ 32)
    (h : stream.rest = messageBytes msgBuf ++ t) :
    ∃ stream', recvMessage json kind stream = (decoded json kind msgBuf, stream') ∧
      stream'.rest = t := by
  rw [messageBytes, List.append_assoc] at h
  obtain ⟨s₁, hfour, hrest⟩ := Reader.readFull_of_append h
  rw [length_putUint32] at hfour
  obtain ⟨s₂, hfull, ht⟩ := Reader.readFull_of_append hrest
  refine ⟨s₂, ?_, ht⟩
  rw [recvMessage, hfour, attempt_some, uint32_putUint32, uint32_length hlen, hfull, attempt_some,
    decoded]
  cases json.unmarshal kind msgBuf with
  | none => rfl
  | some msg => rfl

/-- A message that is cut off is an error, and nothing is left to read. -/
theorem recvMessage_of_short (kind : Kind) {msgBuf : Bytes} (hlen : msgBuf.length < 2 ^ 32)
    (hpre : stream.rest <+: messageBytes msgBuf) (hne : stream.rest ≠ messageBytes msgBuf) :
    ∃ e stream', recvMessage json kind stream = (.error e, stream') ∧ stream'.rest = [] := by
  rcases stream.readFull_cases 4 with ⟨_, s₁, hfour, hnil⟩ | ⟨lenBuf, s₁, hfour, hfourlen, hrest⟩
  · exact ⟨.messageLength, s₁, by rw [recvMessage, hfour, attempt_none], hnil⟩
  · -- the length arrived, so it is the body that is cut off
    rw [hrest, messageBytes] at hpre hne
    have hlenBuf : lenBuf = putUint32 (UInt32.ofNat msgBuf.length) :=
      (List.prefix_of_prefix_length_le ((List.prefix_append _ _).trans hpre)
        (List.prefix_append _ _) (by simp [hfourlen])).eq_of_length (by simp [hfourlen])
    subst hlenBuf
    have hbody := (List.prefix_append_right_inj _).mp hpre
    have hlt : s₁.rest.length < msgBuf.length := by
      rcases Nat.lt_or_ge s₁.rest.length msgBuf.length with hlt | hge
      · exact hlt
      · exact absurd (by rw [hbody.eq_of_length_le hge]) hne
    obtain ⟨s₂, hfull, hnil⟩ := Reader.readFull_of_short hlt
    refine ⟨.messageBuffer, s₂, ?_, hnil⟩
    rw [recvMessage, hfour, attempt_some, uint32_putUint32, uint32_length hlen, hfull, attempt_none]

/-! ## Sequences of frames -/

/-- A frame to send, and whether command and message are written in one piece. -/
structure Frame (Msg : Type) where
  command : Bytes
  message : Msg
  joint : Bool

/-- Two sends one after the other, the second only if the first succeeded. -/
def andThen (first : Except SendError Unit × Writer)
    (second : Writer → Except SendError Unit × Writer) : Except SendError Unit × Writer :=
  match first with
  | (.error e, stream) => (.error e, stream)
  | (.ok (), stream) => second stream

def sendFrame (stream : Writer) (f : Frame Msg) : Except SendError Unit × Writer :=
  if f.joint then sendCommandAndMessage json stream f.command f.message
  else andThen (sendCommand stream f.command) fun stream => sendMessage json stream f.message

/-- Send frames up to the first error. -/
def sendFrames : Writer → List (Frame Msg) → Except SendError Unit × Writer
  | stream, [] => (.ok (), stream)
  | stream, f :: frames => andThen (sendFrame json stream f) fun stream => sendFrames stream frames

/-- Receive one command and its message. -/
def recvFrame (kindOf : Bytes → Kind) (stream : Reader) : Option (Bytes × Msg) × Reader :=
  match recvCommand stream with
  | (.error _, stream) => (none, stream)
  | (.ok command, stream) =>
    match recvMessage json (kindOf command) stream with
    | (.error _, stream) => (none, stream)
    | (.ok msg, stream) => (some (command, msg), stream)

/-- A command of 1 to 255 bytes, and a message that JSON encodes in fewer than 2^32 bytes
    and decodes again. -/
def Sendable (kindOf : Bytes → Kind) (command : Bytes) (msg : Msg) : Prop :=
  1 ≤ command.length ∧ command.length ≤ 255 ∧
  ∃ msgBuf, json.marshal msg = some msgBuf ∧ msgBuf.length < 2 ^ 32 ∧
    json.unmarshal (kindOf command) msgBuf = some msg

/-- The bytes of a frame with an encoded message. -/
def frameBytes (command msgBuf : Bytes) : Bytes := commandBytes command ++ messageBytes msgBuf

/-- Bus frames as a frame codec. -/
def frameCodec (kindOf : Bytes → Kind) : FrameCodec (Bytes × Msg) where
  enc := fun f => frameBytes f.1 ((json.marshal f.2).getD [])
  recv := recvFrame json kindOf
  valid := fun f => Sendable json kindOf f.1 f.2
  enc_ne_nil := by
    intro f _
    simp [frameBytes, commandBytes]
  recv_eof := by
    intro r hr
    have hread : recvCommand r = (.error .commandLength, .eof) := by
      rw [recvCommand, Reader.read_eof hr, attempt_none]
    rw [recvFrame, hread]
  recv_enc := by
    intro r f t ⟨_, hlen, msgBuf, hmar, hbuf, hun⟩ hr
    rw [hmar, Option.getD_some, frameBytes, List.append_assoc] at hr
    obtain ⟨s₁, hcommand, hrest⟩ := recvCommand_of_append hlen hr
    obtain ⟨s₂, hmessage, ht⟩ := recvMessage_of_append json (kindOf f.1) hbuf hrest
    rw [decoded, hun] at hmessage
    exact ⟨s₂, by rw [recvFrame, hcommand]; simp only [hmessage], ht⟩
  recv_short := by
    intro r f ⟨_, hlen, msgBuf, hmar, hbuf, hun⟩ hpre hne
    rw [hmar, Option.getD_some, frameBytes] at hpre hne
    by_cases hfull : commandBytes f.1 <+: r.rest
    · -- the command arrived, the message is cut off
      obtain ⟨t, ht⟩ := hfull
      rw [← ht] at hpre hne
      obtain ⟨s₁, hcommand, hrest⟩ := recvCommand_of_append hlen ht.symm
      obtain ⟨e, s₂, hmessage, _⟩ := recvMessage_of_short json (kindOf f.1) hbuf
        (hrest ▸ (List.prefix_append_right_inj _).mp hpre)
        (fun h => hne (by rw [← hrest, h]))
      rw [recvFrame, hcommand]
      simp only [hmessage]
    · have hcut : r.rest <+: commandBytes f.1 := by
        rcases List.prefix_or_prefix_of_prefix hpre (List.prefix_append (commandBytes f.1) _) with
          h | h
        · exact h
        · exact absurd h hfull
      obtain ⟨e, s₁, hcommand, _⟩ := recvCommand_of_short hlen hcut
        (fun h => hfull (h ▸ List.prefix_refl _))
      rw [recvFrame, hcommand]

/-- Call `recvCommand` and `recvMessage` in turn until one returns an error. -/
def recvFrames (kindOf : Bytes → Kind) (stream : Reader) : List (Bytes × Msg) :=
  (frameCodec json kindOf).recvAll stream

/-! ### Sending -/

/-- What a send leaves in the stream: the bytes, or after an error a first part of them. -/
def Wrote (stream : Writer) (bytes : Bytes) (result : Except SendError Unit × Writer) : Prop :=
  (result.1 = .ok () ∧ result.2.sent = stream.sent ++ bytes) ∨
  (result.1 ≠ .ok () ∧ ∃ part, part <+: bytes ∧ result.2.sent = stream.sent ++ part)

theorem write_wrote (stream : Writer) (buffer : Bytes) :
    Wrote stream buffer (write stream buffer) := by
  rcases stream.writeAll_cases buffer with ⟨w, h, hsent⟩ | ⟨w, part, h, hpart, hsent⟩
  · left
    simp [write, h, hsent]
  · right
    exact ⟨by simp [write, h], part, hpart, by simp [write, h, hsent]⟩

theorem Wrote.andThen {stream : Writer} {a b : Bytes} {first : Except SendError Unit × Writer}
    {second : Writer → Except SendError Unit × Writer} (h₁ : Wrote stream a first)
    (h₂ : ∀ w, Wrote w b (second w)) :
    Wrote stream (a ++ b) (Bus.andThen first second) := by
  match first, h₁ with
  | (.error e, w), h₁ =>
    rcases h₁ with ⟨hok, _⟩ | ⟨herr, part, hpart, hsent⟩
    · cases hok
    · exact .inr ⟨herr, part, hpart.trans (List.prefix_append a b), hsent⟩
  | (.ok (), w), h₁ =>
    have hw : w.sent = stream.sent ++ a := by
      rcases h₁ with ⟨_, hsent⟩ | ⟨herr, _⟩
      · exact hsent
      · exact absurd rfl herr
    show Wrote stream (a ++ b) (second w)
    rcases h₂ w with ⟨hok, hsent⟩ | ⟨herr, part, hpart, hsent⟩
    · exact .inl ⟨hok, by rw [hsent, hw, List.append_assoc]⟩
    · exact .inr ⟨herr, a ++ part, (List.prefix_append_right_inj a).mpr hpart,
        by rw [hsent, hw, List.append_assoc]⟩

/-- Both ways of sending write the same bytes. -/
theorem sendFrame_wrote {kindOf : Bytes → Kind} (stream : Writer) {f : Frame Msg}
    (hf : Sendable json kindOf f.command f.message) :
    Wrote stream ((frameCodec json kindOf).enc (f.command, f.message)) (sendFrame json stream f) := by
  obtain ⟨hpos, hlen, msgBuf, hmar, _, _⟩ := hf
  have hne : ¬ f.command.length = 0 := by omega
  have hle : ¬ f.command.length > 255 := by omega
  show Wrote stream (frameBytes f.command ((json.marshal f.message).getD [])) _
  rw [hmar, Option.getD_some, frameBytes, sendFrame]
  by_cases hjoint : f.joint
  · rw [if_pos hjoint, sendCommandAndMessage, if_neg hne, if_neg hle, hmar]
    exact write_wrote _ _
  · rw [if_neg hjoint, sendCommand, if_neg hne, if_neg hle]
    apply Wrote.andThen (write_wrote stream _)
    intro w
    rw [sendMessage, hmar]
    exact write_wrote _ _

theorem sendFrames_wrote {kindOf : Bytes → Kind} (frames : List (Frame Msg))
    (hf : ∀ f ∈ frames, Sendable json kindOf f.command f.message) (stream : Writer) :
    Wrote stream ((frames.map fun f => (f.command, f.message)).flatMap (frameCodec json kindOf).enc)
      (sendFrames json stream frames) := by
  induction frames generalizing stream with
  | nil => exact .inl ⟨rfl, by simp [sendFrames]⟩
  | cons f frames ih =>
    rw [List.map_cons, List.flatMap_cons]
    exact Wrote.andThen (sendFrame_wrote json stream (hf f List.mem_cons_self))
      (fun w => ih (fun g hg => hf g (List.mem_cons_of_mem _ hg)) w)

/-! ### The loops over a sequence of frames -/

/-- A frame as it is on the stream, with a payload that need not decode. -/
structure RawFrame where
  command : Bytes
  payload : Bytes
  command_pos : 1 ≤ command.length
  command_le : command.length ≤ 255
  payload_lt : payload.length < 2 ^ 32

def RawFrame.bytes (f : RawFrame) : Bytes := frameBytes f.command f.payload

/-- What a bus loop should do for the frames: handle each of them, decoded or not, up to
    the first one at which it ends. -/
def eventsOf (kindOf : Bytes → Kind) (ends : Kind → Bool) (active : Nat → Bool) :
    Nat → List RawFrame → List (Event Kind Msg)
  | _, [] => []
  | i, f :: frames =>
    if active i then
      if ends (kindOf f.command) then [.closed]
      else .handled f.command (kindOf f.command) (decoded json (kindOf f.command) f.payload) ::
        eventsOf kindOf ends active (i + 1) frames
    else []

/-- One round takes exactly one frame from the stream. -/
theorem busLoop_cons (kindOf : Bytes → Kind) (ends : Kind → Bool) (active : Nat → Bool)
    (f : RawFrame) (h : stream.rest = f.bytes ++ t) (rounds i : Nat) :
    ∃ stream', stream'.rest = t ∧
      busLoop json kindOf ends active (rounds + 1) i stream =
        if active i then
          if ends (kindOf f.command) then [.closed]
          else .handled f.command (kindOf f.command) (decoded json (kindOf f.command) f.payload) ::
            busLoop json kindOf ends active rounds (i + 1) stream'
        else [] := by
  rw [RawFrame.bytes, frameBytes, List.append_assoc] at h
  obtain ⟨s₁, hcommand, hrest⟩ := recvCommand_of_append f.command_le h
  obtain ⟨s₂, hmessage, ht⟩ := recvMessage_of_append json (kindOf f.command) f.payload_lt hrest
  refine ⟨s₂, ht, ?_⟩
  rw [busLoop, hcommand]
  simp only [hmessage]

theorem busLoop_of_append (kindOf : Bytes → Kind) (ends : Kind → Bool) (active : Nat → Bool)
    (frames : List RawFrame) :
    ∀ (rounds i : Nat) (stream : Reader), stream.rest = frames.flatMap RawFrame.bytes ++ t →
      stream.rest.length < rounds →
      eventsOf json kindOf ends active i frames <+: busLoop json kindOf ends active rounds i stream ∧
      (t = [] → busLoop json kindOf ends active rounds i stream =
        eventsOf json kindOf ends active i frames) := by
  induction frames with
  | nil =>
    intro rounds i stream h hrounds
    refine ⟨List.nil_prefix, ?_⟩
    rintro rfl
    -- the stream is at its end, so the next command is an error
    obtain ⟨rounds, rfl⟩ : ∃ k, rounds = k + 1 := ⟨rounds - 1, by omega⟩
    have hcommand : recvCommand stream = (.error .commandLength, .eof) := by
      rw [recvCommand, Reader.read_eof h, attempt_none]
    rw [busLoop, hcommand, eventsOf]
  | cons f frames ih =>
    intro rounds i stream h hrounds
    obtain ⟨rounds, rfl⟩ : ∃ k, rounds = k + 1 := ⟨rounds - 1, by omega⟩
    rw [List.flatMap_cons, List.append_assoc] at h
    obtain ⟨stream', hrest, hloop⟩ := busLoop_cons json kindOf ends active f h rounds i
    have hlt : stream'.rest.length < rounds := by
      have hpos : 0 < f.bytes.length := by simp [RawFrame.bytes, frameBytes, commandBytes]
      rw [h, List.length_append, ← hrest] at hrounds
      omega
    obtain ⟨hpre, heq⟩ := ih rounds (i + 1) stream' hrest hlt
    rw [hloop, eventsOf]
    by_cases hactive : active i
    · by_cases hends : ends (kindOf f.command)
      · simp [hactive, hends]
      · simp only [hactive, hends, if_true, Bool.false_eq_true, if_false]
        exact ⟨(List.prefix_cons_inj _).mpr hpre, fun ht => by rw [heq ht]⟩
    · simp [hactive]

/-- The frames of a list on the stream, with anything after them: the loops handle each of
    them, and what follows does not matter to that. -/
def HandlesAll (bus : Reader → List (Event Kind Msg)) (expected : List RawFrame → List (Event Kind Msg)) :
    Prop :=
  ∀ (frames : List RawFrame) (stream : Reader) (t : Bytes),
    stream.rest = frames.flatMap RawFrame.bytes ++ t →
    expected frames <+: bus stream ∧ (t = [] → bus stream = expected frames)

/-- **Bus frames are read back as they were written.**  Sent without an error, in one piece
    or in two, the frames come out in order however the reads are split; from a stream that
    breaks off, some first frames come out.  On both loops every frame is handled as its own
    event, decoded or not and known or not: the server handles all of them up to a `close`
    or up to the command that finds it no longer active, the client all of them. -/
theorem bus_frames_round_trip (kindOf : Bytes → Kind) (server : Json ServerCommand Msg)
    (client : Json ClientCommand Msg) (active : Nat → Bool) :
    (∀ (frames : List (Frame Msg)) (answers : List (Nat × Bool)) (stream : Reader),
      (∀ f ∈ frames, Sendable json kindOf f.command f.message) →
      stream.rest <+: (sendFrames json ⟨[], answers⟩ frames).2.sent →
      recvFrames json kindOf stream <+: frames.map (fun f => (f.command, f.message)) ∧
      ((sendFrames json ⟨[], answers⟩ frames).1 = .ok () →
        stream.rest = (sendFrames json ⟨[], answers⟩ frames).2.sent →
        recvFrames json kindOf stream = frames.map (fun f => (f.command, f.message)))) ∧
    HandlesAll (serverBus server active)
      (eventsOf server serverCommand (· == .close) active 0) ∧
    HandlesAll (clientBus client)
      (eventsOf client clientCommand (fun _ => false) (fun _ => true) 0) := by
  refine ⟨?_, ?_, ?_⟩
  · intro frames answers stream hf hpre
    have hvalid : ∀ a ∈ frames.map (fun f => (f.command, f.message)),
        (frameCodec json kindOf).valid a := by
      intro a ha
      obtain ⟨f, hmem, rfl⟩ := List.mem_map.mp ha
      exact hf f hmem
    rcases sendFrames_wrote json frames hf ⟨[], answers⟩ with ⟨_, hsent⟩ | ⟨herr, part, hpart, hsent⟩
    · rw [List.nil_append] at hsent
      rw [hsent] at hpre
      exact ⟨(frameCodec json kindOf).recvAll_sound hvalid hpre, fun _ hall =>
        (frameCodec json kindOf).recvAll_of_eq hvalid (hall.trans hsent)⟩
    · rw [List.nil_append] at hsent
      rw [hsent] at hpre
      exact ⟨(frameCodec json kindOf).recvAll_sound hvalid (hpre.trans hpart), fun hok =>
        absurd hok herr⟩
  · intro frames stream t h
    exact busLoop_of_append server serverCommand (· == .close) active frames _ 0 stream h
      (Nat.lt_succ_self _)
  · intro frames stream t h
    exact busLoop_of_append client clientCommand (fun _ => false) (fun _ => true) frames _ 0 stream h
      (Nat.lt_succ_self _)

/-- Messages that are their own encoding, unless they are empty. -/
def plainJson (Kind : Type) : Json Kind Bytes where
  marshal := some
  unmarshal := fun _ msgBuf => if msgBuf = [] then none else some msgBuf

/-- Two frames, sent in one piece and in two pieces to a stream that takes three bytes at a
    time, read one byte at a time. -/
theorem bus_frames_round_trip_two_frames :
    let frames : List (Frame Bytes) :=
      [⟨text "alive", [1, 2], true⟩, ⟨text "exit", [3], false⟩]
    let sent := sendFrames (plainJson Unit) ⟨[], [(3, false), (3, false)]⟩ frames
    sent.1 = .ok () ∧
    recvFrames (plainJson Unit) (fun _ => ()) (Reader.ofPieces (sent.2.sent.map ([·]))) =
      [(text "alive", [1, 2]), (text "exit", [3])] := by
  intro frames sent
  have hsendable : ∀ f ∈ frames, Sendable (plainJson Unit) (fun _ => ()) f.command f.message := by
    intro f hf
    rcases List.mem_pair.mp hf with rfl | rfl
    · exact ⟨by decide, by decide, [1, 2], rfl, by decide, rfl⟩
    · exact ⟨by decide, by decide, [3], rfl, by decide, rfl⟩
  have hrest : (Reader.ofPieces (sent.2.sent.map ([·]))).rest = sent.2.sent := by
    rw [Reader.rest_ofPieces]
    simp [← List.flatMap_def]
  have hok : sent.1 = .ok () := by decide
  exact ⟨hok, ((bus_frames_round_trip (plainJson Unit) (fun _ => ()) (plainJson _) (plainJson _)
    (fun _ => true)).1 frames _ _ hsendable (by rw [hrest])).2 hok hrest⟩

end Bus
