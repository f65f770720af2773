/-!
# The network

What an address answers is a list of replies, one for each request; the last of them stays.
Addresses without a list of their own share another list, and an address that has neither cannot
be reached.

A reply is a response with a status and a body in pieces, or a failure.  A failure can also cut a
body short.  Failures are told apart by what the client does about them: a transient one is worth
another attempt, the other failures of a request are not, and neither are those of the system or
the program around it.  A failure may also say itself which stage of the service it belongs to.
-/

namespace PointElevation

/-- The stages on the way to a height that can fail. -/
inductive Stage where
  | listing
  | download
  | decoding
deriving DecidableEq, Repr

/-- What sort of failure it is. -/
inductive FailureKind where
  /-- no connection, or no answer in time -/
  | transient
  /-- the request failed otherwise -/
  | request
  /-- the operating system refused something -/
  | system
  /-- a name that no file can have -/
  | illegalName
  /-- a text that nests too deeply to be read -/
  | nesting
  /-- it names the stage that it belongs to -/
  | staged (stage : Stage)
  /-- something else, known by a label -/
  | foreign (label : String)
deriving DecidableEq, Repr

/-- A failure and its text. -/
structure Failure where
  kind : FailureKind
  text : String
deriving DecidableEq, Repr

/-- A failure that another attempt may not have. -/
def Failure.isTransient (f : Failure) : Bool := f.kind = .transient

/-- A failure of the request itself. -/
def Failure.isRequest (f : Failure) : Bool := f.kind = .transient || f.kind = .request

/-- What comes back from a request. -/
inductive Reply where
  | failure (cause : Failure)
  | response (status : Nat) (reason : String) (pieces : List ByteArray) (cut : Option Failure)

/-- Replies by address. -/
structure Network where
  replies : List (String × List Reply)
  shared : List Reply

instance : Inhabited Network := ⟨⟨[], []⟩⟩

/-- The answer of an address that cannot be reached. -/
def noRoute : Reply := .failure ⟨.transient, "no route"⟩

/-- The next of a list of replies and what stays of the list. -/
def takeReply : List Reply → Reply × List Reply
  | [] => (noRoute, [])
  | [last] => (last, [last])
  | first :: rest => (first, rest)

namespace Network

/-- Sets the replies of an address. -/
def set (n : Network) (url : String) (replies : List Reply) : Network :=
  { n with replies := (url, replies) :: n.replies.filter fun entry => entry.1 != url }

/-- The next reply of an address, and the network after it. -/
def next (n : Network) (url : String) : Reply × Network :=
  match n.replies.lookup url with
  | some replies => ((takeReply replies).1, n.set url (takeReply replies).2)
  | none => ((takeReply n.shared).1, { n with shared := (takeReply n.shared).2 })

end Network

/-- The failure that a status stands for, if it stands for one. -/
def statusFailure? (url : String) (status : Nat) (reason : String) : Option Failure :=
  let text (side : String) :=
    toString status ++ " " ++ side ++ " Error: " ++ reason ++ " for url: " ++ url
  if 400 ≤ status ∧ status < 500 then some ⟨.request, text "Client"⟩
  else if 500 ≤ status ∧ status < 600 then some ⟨.request, text "Server"⟩
  else none

end PointElevation
