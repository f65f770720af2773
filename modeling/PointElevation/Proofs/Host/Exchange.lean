import Mathlib.Data.List.Basic
import PointElevation.Proofs.Host.Ending

/-!
# Requests and replies

The journal keeps the requests and the network its replies, so between two hosts of one run the
exchanges can be told: the requests that came to the journal, each with the reply that the network
had for it.  `Host.Runs` is what every operation of the service does to the two, whatever else it
does, and `Network.Only` says of a network that all it may ever answer has some property, which
no request changes.
-/

namespace PointElevation

/-! ## Networks -/

namespace Network

/-- A reply is one of those that the network has for an address. -/
def MayAnswer (n : Network) (url : String) (r : Reply) : Prop :=
  match n.replies.lookup url with
  | some replies => r ∈ replies
  | none => r ∈ n.shared

/-- Whatever the network may answer has a property. -/
def Only (P : String → Reply → Prop) (n : Network) : Prop := ∀ url r, n.MayAnswer url r → P url r

theorem fst_takeReply (replies : List Reply) :
    (takeReply replies).1 = noRoute ∨ (takeReply replies).1 ∈ replies := by
  match replies with
  | [] => exact .inl rfl
  | [_] => exact .inr (List.mem_singleton_self _)
  | _ :: _ :: _ => exact .inr List.mem_cons_self

theorem mem_of_mem_snd_takeReply {replies : List Reply} {r : Reply}
    (h : r ∈ (takeReply replies).2) : r ∈ replies := by
  match replies with
  | [] => exact h
  | [_] => exact h
  | _ :: _ :: _ => exact List.mem_cons_of_mem _ h

theorem lookup_set (n : Network) (url url' : String) (replies : List Reply) :
    (n.set url replies).replies.lookup url' =
      if url' = url then some replies else n.replies.lookup url' := by
  simp only [set]
  -- the new list stands before what is left of the old entries
  by_cases h : url' = url
  · subst h
    simp
  · have hne : (url' == url) = false := by simpa using h
    rw [List.lookup_cons, hne]
    dsimp only
    rw [lookup_filter (fun key => key != url), if_neg h, if_pos (by simpa using h)]

/-- The next reply is one that the network has, unless there is no route. -/
theorem mayAnswer_fst_next (n : Network) (url : String) :
    (n.next url).1 = noRoute ∨ n.MayAnswer url (n.next url).1 := by
  unfold next MayAnswer
  cases n.replies.lookup url with
  | some replies => exact fst_takeReply replies
  | none => exact fst_takeReply n.shared

/-- A request brings no reply that was not there before. -/
theorem mayAnswer_of_mayAnswer_next {n : Network} {url url' : String} {r : Reply}
    (h : (n.next url).2.MayAnswer url' r) : n.MayAnswer url' r := by
  unfold next at h
  unfold MayAnswer at h ⊢
  cases hlookup : n.replies.lookup url with
  | some replies =>
      rw [hlookup] at h
      dsimp only at h
      rw [lookup_set] at h
      -- a reply was taken from the list of this address, and from no other
      by_cases hurl : url' = url
      · subst hurl
        rw [if_pos rfl] at h
        rw [hlookup]
        exact mem_of_mem_snd_takeReply h
      · rw [if_neg hurl] at h
        exact h
  | none =>
      rw [hlookup] at h
      dsimp only at h
      -- the shared list is that of all addresses without one of their own
      cases hlookup' : n.replies.lookup url' with
      | some replies =>
          rw [hlookup'] at h
          exact h
      | none =>
          rw [hlookup'] at h
          exact mem_of_mem_snd_takeReply h

section Only

variable {P : String → Reply → Prop} {n : Network}

theorem Only.fst_next (h : n.Only P) (hroute : ∀ url, P url noRoute) (url : String) :
    P url (n.next url).1 := by
  rcases n.mayAnswer_fst_next url with heq | hmay
  · rw [heq]
    exact hroute url
  · exact h url _ hmay

theorem Only.snd_next (h : n.Only P) (url : String) : (n.next url).2.Only P :=
  fun url' r hr => h url' r (mayAnswer_of_mayAnswer_next hr)

end Only

/-- The network after requests for a number of addresses. -/
def after (n : Network) (urls : List String) : Network := urls.foldl (fun n url => (n.next url).2) n

/-- Requests for a number of addresses with the replies to them. -/
def exchanges (n : Network) : List String → List (String × Reply)
  | [] => []
  | url :: rest => (url, (n.next url).1) :: (n.next url).2.exchanges rest

theorem after_append (n : Network) (urls more : List String) :
    n.after (urls ++ more) = (n.after urls).after more := List.foldl_append

theorem exchanges_append (n : Network) (urls more : List String) :
    n.exchanges (urls ++ more) = n.exchanges urls ++ (n.after urls).exchanges more := by
  induction urls generalizing n with
  | nil => rfl
  | cons url rest ih =>
      rw [List.cons_append, exchanges, exchanges, ih]
      rfl

theorem Only.after {P : String → Reply → Prop} {n : Network} (h : n.Only P) (urls : List String) :
    (n.after urls).Only P := by
  induction urls generalizing n with
  | nil => exact h
  | cons url rest ih => exact ih (h.snd_next url)

/-- A network with one reply to everything. -/
theorem only_shared {P : String → Reply → Prop} {r : Reply} (h : ∀ url, P url r) :
    Only P ⟨[], [r]⟩ := by
  intro url r' hmay
  rw [List.mem_singleton.mp hmay]
  exact h url

/-- What has to be looked at are the replies of each address, and those for the other addresses. -/
theorem only_of_forall {P : String → Reply → Prop} {n : Network}
    (hown : ∀ entry ∈ n.replies, ∀ r ∈ entry.2, P entry.1 r)
    (hshared : ∀ url, n.replies.lookup url = none → ∀ r ∈ n.shared, P url r) : n.Only P := by
  intro url r hmay
  unfold MayAnswer at hmay
  cases hlookup : n.replies.lookup url with
  | none =>
      rw [hlookup] at hmay
      exact hshared url hlookup r hmay
  | some replies =>
      rw [hlookup] at hmay
      obtain ⟨before, after, hsplit, -⟩ := List.lookup_eq_some_iff.mp hlookup
      exact hown (url, replies) (by rw [hsplit]; simp) r hmay

/-- All replies of exchanges are the network's. -/
theorem Only.exchanges {P : String → Reply → Prop} {n : Network} (h : n.Only P)
    (hroute : ∀ url, P url noRoute) (urls : List String) : ∀ x ∈ n.exchanges urls, P x.1 x.2 := by
  -- the later requests are made to the network that the first one leaves
  induction urls generalizing n with
  | nil => exact fun _ hx => absurd hx List.not_mem_nil
  | cons url rest ih =>
      intro x hx
      rcases List.mem_cons.mp hx with rfl | hx
      · exact h.fst_next hroute url
      · exact ih (h.snd_next url) x hx

end Network

/-! ## Hosts of one run -/

/-- The second host comes from the first by requests, as far as network and requests go. -/
def Host.Runs (h h' : Host) : Prop :=
  ∃ requests : List Request, h'.journal.requests = h.journal.requests ++ requests ∧
    h'.network = h.network.after (requests.map Request.url)

/-- What was asked between two hosts of one run, and what was answered. -/
def Host.exchanges (h h' : Host) : List (String × Reply) :=
  h.network.exchanges
    ((h'.journal.requests.drop h.journal.requests.length).map Request.url)

namespace Host.Runs

variable {h h' h'' : Host}

theorem refl (h : Host) : h.Runs h := ⟨[], by simp, rfl⟩

/-- Nothing is asked while network and requests stay. -/
theorem of_eq (hnetwork : h'.network = h.network)
    (hrequests : h'.journal.requests = h.journal.requests) : h.Runs h' :=
  ⟨[], by simp [hrequests], hnetwork⟩

theorem trans (hrun : h.Runs h') (hrun' : h'.Runs h'') : h.Runs h'' := by
  obtain ⟨first, hfirst, hnetwork⟩ := hrun
  obtain ⟨second, hsecond, hnetwork'⟩ := hrun'
  refine ⟨first ++ second, by rw [hsecond, hfirst, List.append_assoc], ?_⟩
  rw [hnetwork', hnetwork, List.map_append, Network.after_append]

theorem sent (h : Host) (r : Request) : h.Runs (h.sent r) := ⟨[r], rfl, rfl⟩

/-- The exchanges of a run are those of its parts. -/
theorem exchanges_trans (hrun : h.Runs h') (hrun' : h'.Runs h'') :
    h.exchanges h'' = h.exchanges h' ++ h'.exchanges h'' := by
  obtain ⟨first, hfirst, hnetwork⟩ := hrun
  obtain ⟨second, hsecond, -⟩ := hrun'
  simp only [Host.exchanges, hsecond, hfirst, hnetwork, List.append_assoc, List.drop_left,
    List.map_append, Network.exchanges_append]
  rw [← List.append_assoc, List.drop_left]

theorem mem_exchanges_of_left (hrun : h.Runs h') (hrun' : h'.Runs h'') {x : String × Reply}
    (hx : x ∈ h.exchanges h') : x ∈ h.exchanges h'' := by
  rw [hrun.exchanges_trans hrun']
  exact List.mem_append_left _ hx

theorem mem_exchanges_of_right (hrun : h.Runs h') (hrun' : h'.Runs h'') {x : String × Reply}
    (hx : x ∈ h'.exchanges h'') : x ∈ h.exchanges h'' := by
  rw [hrun.exchanges_trans hrun']
  exact List.mem_append_right _ hx

theorem exchanges_sent (h : Host) (r : Request) :
    h.exchanges (h.sent r) = [(r.url, (h.network.next r.url).1)] := by
  simp [Host.exchanges, Host.sent, Network.exchanges]

theorem only {P : String → Reply → Prop} (hrun : h.Runs h') (honly : h.network.Only P) :
    h'.network.Only P := by
  obtain ⟨requests, -, hnetwork⟩ := hrun
  rw [hnetwork]
  exact honly.after _

end Host.Runs

end PointElevation
