import DeskLink.Message
import DeskLink.Digest.Hmac

/-!
# Credentials

The server sends a random nonce; the client proves that it holds a credential by answering it.
How an answer is made and checked is open: a `Prover` answers, a `Checker` decides. The scheme
used here is a `Secret` that both nodes share, and the answer is the authentication code of the
nonce and the client's own node identifier under it. The identifier keeps an answer from being
used under another identity, the nonce from being used on another connection.
-/

namespace DeskLink

/-- How a client answers a challenge. -/
structure Prover where
  respond : Nonce → Identity → Bytes

/-- How a server judges the answer of the node that announced this identity. -/
structure Checker where
  verify : Nonce → Bytes → Identity → Bool

/-- A secret that two nodes share. -/
structure Secret where
  bytes : Bytes
  deriving DecidableEq

namespace Secret

def respond (s : Secret) (nonce : Nonce) (own : Identity) : Bytes :=
  Hmac.code s.bytes (nonce.bytes ++ own.node.bytes)

/-- Accepts exactly the answer that the announced node would have made. -/
def verify (s : Secret) (nonce : Nonce) (credential : Bytes) (peer : Identity) : Bool :=
  credential == s.respond nonce peer

def prover (s : Secret) : Prover := ⟨s.respond⟩

def checker (s : Secret) : Checker := ⟨s.verify⟩

/-- A secret never shows its bytes. -/
def describe (_ : Secret) : String := "SharedSecret(..)"

@[simp] theorem length_respond (s : Secret) (nonce : Nonce) (own : Identity) :
    (s.respond nonce own).length = 32 := by simp [respond]

@[simp] theorem verify_respond (s : Secret) (nonce : Nonce) (own : Identity) :
    s.verify nonce (s.respond nonce own) own = true := by simp [verify]

end Secret

end DeskLink
