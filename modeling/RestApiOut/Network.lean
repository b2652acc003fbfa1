import RestApiOut.Platform
import Mathlib.Data.Finset.Basic
import Mathlib.Logic.Function.Basic

/-!
# Network replies

`QNetworkAccessManager` as the library sees it: `post` hands out a fresh `QNetworkReply`, the
network stores at most one result in it, and its `finished` signal is delivered at most once.
Storing the result (`arrive`) and delivering the signal (`finish`) are separate, so that a finish
can be queued while application code runs.  `deleteLater` neither disconnects nor destroys: a
discarded reply may still be delivered until `finish` or its destruction removes it from `live`.

`Network` carries its well-formedness: live replies have been posted, and a reply that has not been
posted is blank.
-/

namespace RestApiOut

variable {ι : Type}

/-- `QNetworkReply::NetworkError`, as far as the library distinguishes it. -/
inductive NetworkError
  | noError
  | authenticationRequired
  | other (code : Nat)
deriving DecidableEq

/-- What `error()`, `errorString()`, `readAll()` and the content type header of a reply return. -/
structure ReplyResult where
  error : NetworkError
  errorString : String
  body : Bytes
  contentType : Option String
deriving DecidableEq

/-- What an unfinished reply reads as: no error so far, and no bytes. -/
def ReplyResult.unfinished : ReplyResult :=
  ⟨.noError, "Unknown error", [], none⟩

abbrev ReplyId := Nat

/-- The object whose `responseReceived` slot a reply's `finished` signal is connected to. -/
inductive Receiver (ι : Type)
  | server
  | handler (h : ι)
deriving DecidableEq

structure Reply (ι : Type) where
  receiver : Option (Receiver ι)
  result : Option ReplyResult
  /-- `deleteLater` has been called. -/
  discarded : Bool

/-- A reply that has not been posted. -/
def Reply.blank : Reply ι := ⟨none, none, false⟩

structure Network (ι : Type) where
  reply : ReplyId → Reply ι
  next : ReplyId
  /-- The replies whose `finished` signal is still to be delivered. -/
  live : Finset ReplyId
  live_lt : ∀ r ∈ live, r < next
  fresh : ∀ r, next ≤ r → reply r = Reply.blank

namespace Network

/-- A network nothing has been posted to. -/
def empty : Network ι where
  reply _ := Reply.blank
  next := 0
  live := ∅
  live_lt _ member := absurd member (Finset.notMem_empty _)
  fresh _ _ := rfl

def receiver (n : Network ι) (r : ReplyId) : Option (Receiver ι) := (n.reply r).receiver

def discarded (n : Network ι) (r : ReplyId) : Bool := (n.reply r).discarded

def arrived (n : Network ι) (r : ReplyId) : Bool := (n.reply r).result.isSome

/-- What reading the reply gives at this moment. -/
def result (n : Network ι) (r : ReplyId) : ReplyResult :=
  (n.reply r).result.getD .unfinished

/-- `QNetworkAccessManager::post`, with the `finished` signal connected to `receiver`.
The new reply is `n.next`. -/
def post (n : Network ι) (receiver : Receiver ι) : Network ι where
  reply := Function.update n.reply n.next ⟨some receiver, none, false⟩
  next := n.next + 1
  live := insert n.next n.live
  live_lt r member := by
    rcases Finset.mem_insert.mp member with rfl | old
    · exact Nat.lt_succ_self _
    · exact Nat.lt_succ_of_lt (n.live_lt r old)
  fresh r after := by
    have other : r ≠ n.next := Nat.ne_of_gt after
    rw [Function.update_of_ne other]
    exact n.fresh r (Nat.le_of_succ_le after)

/-- Change one posted reply in place. -/
def modify (n : Network ι) (r : ReplyId) (change : Reply ι → Reply ι) : Network ι where
  reply := if r < n.next then Function.update n.reply r (change (n.reply r)) else n.reply
  next := n.next
  live := n.live
  live_lt := n.live_lt
  fresh q after := by
    split
    · rename_i posted
      have other : q ≠ r := Nat.ne_of_gt (Nat.lt_of_lt_of_le posted after)
      rw [Function.update_of_ne other]
      exact n.fresh q after
    · exact n.fresh q after

/-- `QObject::deleteLater`. -/
def deleteLater (n : Network ι) (r : ReplyId) : Network ι :=
  n.modify r fun reply => { reply with discarded := true }

/-- The network stores a result in the reply and queues its `finished` signal. -/
def arrive (n : Network ι) (r : ReplyId) (result : ReplyResult) : Network ι :=
  n.modify r fun reply => { reply with result := some result }

/-- The `finished` signal of `r` will not be delivered (again). -/
def retire (n : Network ι) (r : ReplyId) : Network ι where
  reply := n.reply
  next := n.next
  live := n.live.erase r
  live_lt q member := n.live_lt q (Finset.mem_of_mem_erase member)
  fresh := n.fresh

/-! ## Reading a network after an operation -/

variable {n : Network ι} {r q : ReplyId}

@[simp] theorem next_empty : (empty : Network ι).next = 0 := rfl

@[simp] theorem live_empty : (empty : Network ι).live = ∅ := rfl

theorem next_notMem_live : n.next ∉ n.live := fun member =>
  Nat.lt_irrefl _ (n.live_lt _ member)

@[simp] theorem next_post (slot : Receiver ι) : (n.post slot).next = n.next + 1 := rfl

@[simp] theorem live_post (slot : Receiver ι) : (n.post slot).live = insert n.next n.live := rfl

@[simp] theorem receiver_post (slot : Receiver ι) :
    (n.post slot).receiver r = if r = n.next then some slot else n.receiver r := by
  by_cases new : r = n.next
  · simp [receiver, post, new]
  · simp [receiver, post, new]

@[simp] theorem discarded_post (slot : Receiver ι) :
    (n.post slot).discarded r = if r = n.next then false else n.discarded r := by
  by_cases new : r = n.next
  · simp [discarded, post, new]
  · simp [discarded, post, new]

@[simp] theorem reply_result_post (slot : Receiver ι) :
    ((n.post slot).reply r).result = (n.reply r).result := by
  by_cases new : r = n.next
  · simp [post, new, n.fresh n.next (Nat.le_refl _), Reply.blank]
  · simp [post, new]

@[simp] theorem next_deleteLater : (n.deleteLater q).next = n.next := rfl

@[simp] theorem live_deleteLater : (n.deleteLater q).live = n.live := rfl

@[simp] theorem receiver_deleteLater : (n.deleteLater q).receiver r = n.receiver r := by
  unfold deleteLater modify receiver
  split
  · by_cases same : r = q
    · simp [same]
    · simp [same]
  · rfl

@[simp] theorem reply_result_deleteLater :
    ((n.deleteLater q).reply r).result = (n.reply r).result := by
  unfold deleteLater modify
  dsimp only
  split
  · by_cases same : r = q
    · simp [same]
    · simp [same]
  · rfl

theorem discarded_deleteLater :
    (n.deleteLater q).discarded r = (n.discarded r || decide (r = q ∧ q < n.next)) := by
  unfold deleteLater modify discarded
  dsimp only
  split
  · rename_i posted
    by_cases same : r = q
    · simp [same, posted]
    · simp [same]
  · rename_i unposted
    simp [unposted]

@[simp] theorem next_arrive (res : ReplyResult) : (n.arrive q res).next = n.next := rfl

@[simp] theorem live_arrive (res : ReplyResult) : (n.arrive q res).live = n.live := rfl

@[simp] theorem receiver_arrive (res : ReplyResult) :
    (n.arrive q res).receiver r = n.receiver r := by
  unfold arrive modify receiver
  split
  · by_cases same : r = q
    · simp [same]
    · simp [same]
  · rfl

@[simp] theorem discarded_arrive (res : ReplyResult) :
    (n.arrive q res).discarded r = n.discarded r := by
  unfold arrive modify discarded
  split
  · by_cases same : r = q
    · simp [same]
    · simp [same]
  · rfl

theorem reply_result_arrive (posted : q < n.next) (res : ReplyResult) :
    ((n.arrive q res).reply r).result = if r = q then some res else (n.reply r).result := by
  unfold arrive modify
  dsimp only
  rw [if_pos posted]
  by_cases same : r = q
  · simp [same]
  · simp [same]

/-- What has arrived is what is read. -/
theorem stored_of_arrived (arrived : n.arrived r = true) :
    (n.reply r).result = some (n.result r) := by
  obtain ⟨result, stored⟩ := Option.isSome_iff_exists.mp arrived
  rw [Network.result, stored]
  rfl

/-- A reply has one result: what is stored stays when another arrives. -/
theorem stored_arrive {stored : ReplyResult} (posted : q < n.next) (first : n.arrived q = false)
    (res : ReplyResult) (before : (n.reply r).result = some stored) :
    ((n.arrive q res).reply r).result = some stored := by
  rw [reply_result_arrive posted, if_neg]
  · exact before
  · rintro rfl
    simp [arrived, before] at first

@[simp] theorem next_retire : (n.retire q).next = n.next := rfl

@[simp] theorem live_retire : (n.retire q).live = n.live.erase q := rfl

@[simp] theorem receiver_retire : (n.retire q).receiver r = n.receiver r := rfl

@[simp] theorem discarded_retire : (n.retire q).discarded r = n.discarded r := rfl

@[simp] theorem reply_retire : (n.retire q).reply r = n.reply r := rfl

end Network

end RestApiOut
