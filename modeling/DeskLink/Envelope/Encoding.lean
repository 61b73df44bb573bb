import DeskLink.Envelope.Basic

/-!
# Writing envelopes

    version | kind | flags | session (16, with flag 1) | sequence (4) | body

Texts and credentials are preceded by their length in two bytes, and a message with one that is
too long for that cannot be written; every other message can.
-/

namespace DeskLink.Envelope

/-- The flag of an envelope that names a session. -/
def sessionFlag : UInt8 := 1

def truthCode (b : Bool) : UInt8 := if b then 1 else 0

/-- A field behind its length in two bytes. -/
def encodeField (field : String) (b : Bytes) : Except Defect Bytes :=
  if b.length < 65536 then .ok (Bytes.ofNat 2 b.length ++ b)
  else .error (.oversize field b.length)

def encodeHello (h : Hello) : Except Defect Bytes := do
  let name ← encodeField "hello name" (Utf8.encode h.identity.name)
  pure ([h.version.major, h.version.minor] ++ Bytes.ofNat 4 h.identity.capabilities.toNat
    ++ h.identity.node.bytes ++ name)

/-- The body of a challenge or of the answer to one. -/
def encodeAuth : Auth → Except Defect Bytes
  | .challenge nonce => .ok (1 :: nonce.bytes)
  | .response credential => (encodeField "auth credential" credential).map (2 :: ·)

def encodeVerdict (v : Verdict) : Bytes :=
  truthCode v.accepted :: match v.session with
    | some id => 1 :: id.bytes
    | none => [0]

def encodeEvent : Event → Bytes
  | .keyboard k =>
    [1] ++ Bytes.ofNat 2 k.keyCode.toNat ++ [truthCode k.pressed, k.modifiers.bits]
      ++ Bytes.ofNat 8 k.timestamp.toNat
  | .mouse m =>
    [2] ++ Bytes.ofNat 4 m.x.toUInt32.toNat ++ Bytes.ofNat 4 m.y.toUInt32.toNat
      ++ [(m.button.map MouseButton.code).getD 0, truthCode m.pressed]
      ++ Bytes.ofNat 2 m.wheel.toUInt16.toNat ++ Bytes.ofNat 8 m.timestamp.toNat

def encodeBody : Message → Except Defect Bytes
  | .hello h => encodeHello h
  | .auth a => encodeAuth a
  | .authResult v => .ok (encodeVerdict v)
  | .heartbeat token | .heartbeatAck token => .ok (Bytes.ofNat 8 token.toNat)
  | .input e => .ok (encodeEvent e)
  | .close reason => .ok [reason.code]
  | .report r =>
    (encodeField "error description" (Utf8.encode r.description)).map (r.code.code :: ·)

def encodeHeader (version : UInt8) (session : Option SessionId) (seq : UInt32) (kind : Kind) :
    Bytes :=
  let name := match session with
    | some id => sessionFlag :: id.bytes
    | none => [0]
  [version, kind.code] ++ name ++ Bytes.ofNat 4 seq.toNat

def encode (e : Envelope) : Except Defect Bytes :=
  (encodeBody e.message).map (encodeHeader e.version e.session e.seq e.message.kind ++ ·)

end DeskLink.Envelope
