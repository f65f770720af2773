import PointElevation.Json.Reader

/-!
# The reply of the listing service

The service does not send the listing itself but an object whose member `href` is the address of
it.  Anything else is a malformed reply: a text that is no JSON, a value that is no object, and a
member that is missing, empty or no string.  A text that nests too deeply is not judged at all.
-/

namespace PointElevation

/-- A reply without an address, cut to its first 200 characters. -/
structure MalformedReply where
  excerpt : String
deriving DecidableEq, Repr

/-- The beginning of a reply, for messages. -/
def MalformedReply.of (reply : String) : MalformedReply := ⟨String.ofList (reply.toList.take 200)⟩

def MalformedReply.message (fault : MalformedReply) : String :=
  "Tile listing response has no CSV href: " ++ fault.excerpt

/-- Why no address is found in a reply. -/
inductive ReplyFault where
  | malformed (cause : MalformedReply)
  | tooDeep (container : Json.Container)
deriving DecidableEq, Repr

def ReplyFault.message : ReplyFault → String
  | .malformed cause => cause.message
  | .tooDeep container => (Json.ReadFault.tooDeep container).message

/-- The address of the listing in a reply. -/
def listingAddress (reply : String) : Except ReplyFault String :=
  match Json.parse reply with
  | .error (.tooDeep container) => .error (.tooDeep container)
  | .error .malformed => .error (.malformed (.of reply))
  | .ok value =>
      match value.member? "href" with
      | some (.string url) =>
          if url.isEmpty then .error (.malformed (.of reply)) else .ok url
      | _ => .error (.malformed (.of reply))

end PointElevation
