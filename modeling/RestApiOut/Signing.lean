import RestApiOut.Waiting
import RestApiOut.Sample

/-!
# What a transmitted message contains

A message is built from fields that may have been written long before: the URL and the payload by
the latest `post`, the secrets by their setters, the time delta by the update the message waited
for.  `Configured` says that these fields are what the trace says was configured last, and
`Measured` that the success loop runs with the time delta its update has just accepted.
`messages_signed` puts the two together for every message of every run.
-/

namespace RestApiOut

open Transition History

variable {P : Platform} {ι : Type}

/-- Two states of a handler that build the same message. -/
structure Handler.SameRequest (x x' : Handler P) : Prop where
  kind : x'.kind = x.kind
  secret : x'.currentSecret = x.currentSecret
  payload : x'.currentPayload = x.currentPayload
  url : x'.currentUrl = x.currentUrl

theorem Handler.SameRequest.refl (x : Handler P) : x.SameRequest x := ⟨rfl, rfl, rfl, rfl⟩

theorem Handler.SameRequest.trans {x y z : Handler P} (left : x.SameRequest y)
    (right : y.SameRequest z) : x.SameRequest z :=
  ⟨right.kind.trans left.kind, right.secret.trans left.secret, right.payload.trans left.payload,
    right.url.trans left.url⟩

variable [DecidableEq ι]

theorem Handler.SameRequest.update {handler : ι → Handler P} {h : ι} {x : Handler P}
    (same : (handler h).SameRequest x) (k : ι) :
    (handler k).SameRequest (Function.update handler h x k) := by
  rcases eq_or_ne k h with rfl | mine
  · rw [Function.update_self]
    exact same
  · rw [Function.update_of_ne mine]
    exact .refl _

omit [DecidableEq ι] in
/-- A message for a post with these arguments: the URL and the payload its handler is to build from
them, and the payload framed with its hash. -/
def Message.IsFor (m : Message P) (base : P.Url) (endpoint : String) : Content P → Prop
  | .json document => m.request.url = P.parseUrl (P.urlString base ++ endpoint) ∧
      m.payload = P.toJson document ∧
      m.request.body = P.toJson (P.ofObject (jsonMessage m.payload m.hash))
  | .binary bytes => m.request.url = P.setPath base endpoint ∧ m.payload = bytes ∧
      m.request.body = m.payload ++ m.hash

omit [DecidableEq ι] in
/-- It is built by the functions of the handler's class. -/
theorem Message.isFor_iff {m : Message P} {base : P.Url} {endpoint : String} {content : Content P} :
    m.IsFor base endpoint content ↔ m.request.url = content.url base endpoint ∧
      m.payload = content.payload ∧ m.request.body = content.kind.frame P m.payload m.hash := by
  cases content <;> exact Iff.rfl

namespace World

/-- Every field a message is built from is what was configured last. -/
structure Configured (w : World P ι) : Prop where
  own : ∀ h, Keeps (w.handler h).currentSecret (lastSecret h w.trace)
  default : Keeps w.server.currentDefaultSecret (lastDefaultSecret w.trace)
  request : ∀ h base endpoint content, lastPost h w.trace = some (base, endpoint, content) →
    (w.handler h).kind = content.kind ∧ (w.handler h).currentUrl = content.url base endpoint ∧
      (w.handler h).currentPayload = content.payload
  posted : ∀ h, (w.handler h).pendingReply ≠ none ∨ h ∈ w.awaiting → lastPost h w.trace ≠ none

/-- While the success loop runs, the time delta is the one just accepted. -/
def Measured (w : World P ι) : Prop :=
  ∀ rest, w.control = .updating rest → justAccepted w.trace = some w.server.currentTimeDelta

variable {w w' : World P ι} {h k : ι} {q r : ReplyId}

omit [DecidableEq ι] in
theorem Initial.measured (init : w.Initial) : w.Measured := by
  intro rest inLoop
  rw [init.control] at inLoop
  cases inLoop

theorem Initial.configured (init : w.Initial) : w.Configured where
  own h := by rw [init.trace]; exact init.handlerSecret h
  default := by rw [init.trace]; exact init.secret
  request h base endpoint content posted := by rw [init.trace] at posted; cases posted
  posted h busy := by
    rcases busy with own | waits
    · exact absurd (init.handlerPending h) own
    · rw [init.awaiting] at waits
      cases waits

section Enlist

omit [DecidableEq ι] in
@[simp] theorem secret_enlist :
    (w.enlist h).server.currentDefaultSecret = w.server.currentDefaultSecret :=
  enlist_congr (fun w => w.server.currentDefaultSecret) (fun _ => rfl) fun _ _ => rfl

omit [DecidableEq ι] in
@[simp] theorem lastDefaultSecret_enlist :
    lastDefaultSecret (w.enlist h).trace = lastDefaultSecret w.trace :=
  trace_enlist_congr lastDefaultSecret (fun _ => rfl) fun _ _ _ => rfl

@[simp] theorem lastSecret_enlist :
    lastSecret k (w.enlist h).trace = lastSecret k w.trace :=
  trace_enlist_congr (lastSecret k) (fun _ => rfl) fun _ _ _ => rfl

@[simp] theorem lastPost_enlist : lastPost k (w.enlist h).trace = lastPost k w.trace :=
  trace_enlist_congr (lastPost k) (fun _ => rfl) fun _ _ _ => rfl

end Enlist

/-! ## One lemma an effect -/

theorem sameRequest_takePending (w : World P ι) (h k : ι) (q : ReplyId) :
    (w.handler k).SameRequest ((w.takePending h q).handler k) := by
  have same : (w.handler h).SameRequest { w.handler h with pendingReply := none } :=
    ⟨rfl, rfl, rfl, rfl⟩
  exact same.update k

theorem sameRequest_spendRetry (w : World P ι) (h k : ι) (q : ReplyId) :
    (w.handler k).SameRequest ((w.spendRetry h q).handler k) := by
  have same : (w.handler h).SameRequest
      { w.handler h with retriesRemaining := (w.handler h).retriesRemaining - 1 } :=
    ⟨rfl, rfl, rfl, rfl⟩
  exact same.update k

theorem sameRequest_timestampUpdateFailed (w : World P ι) (h k : ι) :
    (w.handler k).SameRequest ((w.timestampUpdateFailed h).handler k) := by
  have same : (w.handler h).SameRequest { w.handler h with pendingReply := none } :=
    ⟨rfl, rfl, rfl, rfl⟩
  exact same.update k

/-- A step that configures nothing, builds no message and makes nobody wait who did not hold a
reply or wait before. -/
theorem Configured.of_frame (configured : w.Configured)
    (request : ∀ h, (w.handler h).SameRequest (w'.handler h))
    (default : w'.server.currentDefaultSecret = w.server.currentDefaultSecret)
    (lastOwn : ∀ h, lastSecret h w'.trace = lastSecret h w.trace)
    (lastDefault : lastDefaultSecret w'.trace = lastDefaultSecret w.trace)
    (last : ∀ h, lastPost h w'.trace = lastPost h w.trace)
    (busy : ∀ h, (w'.handler h).pendingReply ≠ none ∨ h ∈ w'.awaiting →
      (w.handler h).pendingReply ≠ none ∨ h ∈ w.awaiting) : w'.Configured where
  own h := by
    rw [lastOwn, (request h).secret]
    exact configured.own h
  default := by
    rw [lastDefault, default]
    exact configured.default
  request h base endpoint content posted := by
    rw [last] at posted
    obtain ⟨kind, url, payload⟩ := configured.request h base endpoint content posted
    exact ⟨(request h).kind.trans kind, (request h).url.trans url,
      (request h).payload.trans payload⟩
  posted h busy' := by
    rw [last]
    exact configured.posted h (busy h busy')

/-- Hashing leaves every secret where it is. -/
theorem Configured.hashedSecret (configured : w.Configured) (h : ι) :
    Keeps (w.hashedSecret h) (lastSecret h w.trace) := by
  have own := configured.own h
  unfold World.hashedSecret
  cases last : lastSecret h w.trace with
  | none =>
      rw [last] at own
      have empty : (w.handler h).currentSecret = [] := own
      rw [empty]
      exact calculateHash_secret_of_empty _ _ _ _
  | some secret =>
      rw [last] at own
      exact Holds.calculateHash own _ _ _ _

/-- A message sent for the latest post. -/
theorem Configured.timestampUpdated (configured : w.Configured)
    (posted : lastPost h w.trace ≠ none) : (w.timestampUpdated h).Configured where
  own k := by
    rw [trace_timestampUpdated, timestampUpdated_eq]
    rcases eq_or_ne k h with rfl | mine
    · simpa [lastSecret] using configured.hashedSecret k
    · simpa [lastSecret, mine] using configured.own k
  default := by
    rw [trace_timestampUpdated, server_timestampUpdated]
    exact configured.default
  request k base endpoint content last := by
    rw [trace_timestampUpdated] at last
    rw [timestampUpdated_eq]
    rcases eq_or_ne k h with rfl | mine
    · simpa using configured.request k base endpoint content last
    · simpa [mine] using configured.request k base endpoint content last
  posted k busy := by
    rw [trace_timestampUpdated]
    rcases eq_or_ne k h with rfl | mine
    · exact posted
    · apply configured.posted k
      rw [pendingReply_timestampUpdated, if_neg mine] at busy
      apply busy.imp_right
      intro waits
      simpa [awaiting] using waits

theorem lastPost_beginPost (w : World P ι) (h : ι) (endpoint : String) (content : Content P) :
    lastPost h (w.beginPost h endpoint content).trace ≠ none := by
  rw [trace_beginPost, lastPost, if_pos rfl]
  exact Option.some_ne_none _

theorem Configured.beginPost {content : Content P} (configured : w.Configured)
    (endpoint : String) (kind : (w.handler h).kind = content.kind) :
    (w.beginPost h endpoint content).Configured where
  own k := by
    rcases eq_or_ne k h with rfl | mine
    · simpa [World.beginPost, setHandler, note, lastSecret] using configured.own k
    · simpa [World.beginPost, setHandler, note, lastSecret, mine] using configured.own k
  default := configured.default
  request k base endpoint' content' last := by
    rw [trace_beginPost, lastPost] at last
    rcases eq_or_ne h k with rfl | mine
    · rw [if_pos rfl] at last
      cases last
      simpa [World.beginPost, setHandler, note] using kind
    · rw [if_neg mine] at last
      simpa [World.beginPost, setHandler, note, Ne.symm mine] using
        configured.request k base endpoint' content' last
  posted k busy := by
    rw [trace_beginPost, lastPost]
    rcases eq_or_ne h k with rfl | mine
    · rw [if_pos rfl]
      exact Option.some_ne_none _
    · rw [if_neg mine]
      refine configured.posted k (busy.imp_left fun own => ?_)
      rwa [pendingReply_beginPost] at own

theorem Configured.setSecret {secret : Bytes} (configured : w.Configured)
    (long : secret.length = secretLength) : (w.setSecret h secret).Configured where
  own k := by
    rw [trace_setSecret, lastSecret]
    rcases eq_or_ne h k with rfl | mine
    · rw [if_pos rfl]
      simpa [World.setSecret, setHandler, note, Keeps] using Holds.storeSecret long
    · rw [if_neg mine]
      simpa [World.setSecret, setHandler, note, Ne.symm mine] using configured.own k
  default := configured.default
  request k base endpoint content last := by
    have before := configured.request k base endpoint content last
    rcases eq_or_ne k h with rfl | mine
    · simpa [World.setSecret, setHandler, note] using before
    · simpa [World.setSecret, setHandler, note, mine] using before
  posted k busy := by
    refine configured.posted k (busy.imp_left fun own => ?_)
    rwa [pendingReply_setSecret] at own

theorem Configured.enlist (configured : w.Configured) (free : w.control.locked = false)
    (posted : lastPost h w.trace ≠ none) : (w.enlist h).Configured := by
  have waits : (w.enlist h).awaiting = w.awaiting ++ [h] := awaiting_enlist free
  refine ⟨?_, ?_, ?_, ?_⟩
  · intro k
    rw [handler_enlist, lastSecret_enlist]
    exact configured.own k
  · rw [secret_enlist, lastDefaultSecret_enlist]
    exact configured.default
  · intro k base endpoint content last
    rw [lastPost_enlist] at last
    rw [handler_enlist]
    exact configured.request k base endpoint content last
  · intro k busy
    rw [lastPost_enlist]
    rw [handler_enlist, waits, List.mem_append, List.mem_singleton] at busy
    rcases busy with own | before | new
    · exact configured.posted k (.inl own)
    · exact configured.posted k (.inr before)
    · rw [new]
      exact posted

/-- Every action keeps the fields configured. -/
theorem Configured.action {e : Event P ι} (configured : w.Configured) (action : Action w e w') :
    w'.Configured := by
  cases action with
  | @postNow h endpoint content user free idle kind =>
      exact (configured.beginPost endpoint kind).timestampUpdated
        (lastPost_beginPost w h endpoint content)
  | @postDeferred h endpoint content r user free pending kind =>
      have begun := configured.beginPost endpoint kind
      rw [← enlist_of_pending (w := w.beginPost h endpoint content) pending]
      exact begun.enlist free (lastPost_beginPost w h endpoint content)
  | @postBlocked h k endpoint content rest inLoop kind =>
      refine (configured.beginPost endpoint kind).of_frame (fun _ => .refl _) rfl
        (fun _ => rfl) rfl (fun _ => rfl) fun j busy => ?_
      rcases busy with own | waits
      · exact .inl own
      · cases waits
  | setSecret long => exact configured.setSecret long
  | @setDefaultSecret secret long =>
      exact ⟨configured.own, Holds.storeSecret long, configured.request, configured.posted⟩
  | configure plain noPost =>
      refine configured.of_frame (fun _ => .refl _) plain.secret (fun _ => rfl) rfl (fun _ => rfl)
        fun k busy => ?_
      simpa [awaiting, plain.waiting] using busy
  | returned callback =>
      have free := free_of_callback callback
      refine configured.of_frame (fun _ => .refl _) rfl (fun _ => rfl) rfl (fun _ => rfl)
        fun k busy => ?_
      rw [awaiting_of_free free]
      exact busy
  | resumed inLoop =>
      refine configured.of_frame (fun _ => .refl _) rfl (fun _ => rfl) rfl (fun _ => rfl)
        fun k busy => ?_
      rw [awaiting_failed inLoop]
      exact busy
  | @notifyUpdated h rest inLoop =>
      have noted : (w.note (.notified h true)).Configured :=
        configured.of_frame (fun _ => .refl _) rfl (fun _ => rfl) rfl (fun _ => rfl)
          fun _ busy => busy
      have posted : lastPost h w.trace ≠ none := by
        refine configured.posted h (.inr ?_)
        rw [awaiting_updating inLoop]
        exact List.mem_cons_self
      refine (noted.timestampUpdated posted).of_frame (fun _ => .refl _) rfl (fun _ => rfl) rfl
        (fun _ => rfl) fun k busy => busy.imp_right fun waits => ?_
      have before : (w.note (.notified h true)).control = .updating (h :: rest) := inLoop
      rw [awaiting_updating ((control_timestampUpdated _ h).trans before)]
      exact List.mem_cons_of_mem h waits
  | @notifyFailed h rest inLoop =>
      refine configured.of_frame (fun k => sameRequest_timestampUpdateFailed _ h k) rfl
        (fun _ => rfl) rfl (fun _ => rfl) fun k busy => ?_
      rw [awaiting_failing inLoop]
      refine busy.imp (fun own => ?_) (fun waits => List.mem_cons_of_mem h waits)
      have own' := (pendingReply_timestampUpdateFailed (w.note (.notified h false)) h k).symm
        |>.trans_ne own
      split at own'
      · exact absurd rfl own'
      · exact own'
  | endUpdated | endFailed =>
      refine configured.of_frame (fun _ => .refl _) rfl (fun _ => rfl) rfl (fun _ => rfl)
        fun k busy => .inl (busy.resolve_right List.not_mem_nil)
  | arrived | destroyed | slotNull =>
      exact configured.of_frame (fun _ => .refl _) rfl (fun _ => rfl) rfl (fun _ => rfl)
        fun _ busy => busy
  | @slotOutcome h r q o finishing pending final =>
      refine configured.of_frame (fun k => sameRequest_takePending _ h k q) rfl (fun _ => rfl) rfl
        (fun _ => rfl) fun k busy => ?_
      rw [awaiting_of_free finishing.free]
      apply busy.imp_left
      intro own
      have own' := (pendingReply_takePending (w.enterSlot h r) h k q).symm |>.trans_ne own
      split at own'
      · exact absurd rfl own'
      · exact own'
  | @slotRetry h r q finishing pending rejected =>
      have posted : lastPost h w.trace ≠ none :=
        configured.posted h (.inl (Option.ne_none_iff_exists'.mpr ⟨_, pending⟩))
      have spent : (((w.enterSlot h r).takePending h q).spendRetry h q).Configured := by
        refine configured.of_frame
          (fun k => (sameRequest_takePending (w.enterSlot h r) h k q).trans
            (sameRequest_spendRetry _ h k q))
          rfl (fun _ => rfl) rfl (fun _ => rfl) fun k busy => busy.imp_left fun own => ?_
        simp only [pendingReply_spendRetry, pendingReply_takePending] at own
        split at own
        · exact absurd rfl own
        · exact own
      refine spent.enlist ?_ posted
      simp [finishing.loop, Control.locked]
  | serverRetry =>
      exact configured.of_frame (fun _ => .refl _) rfl (fun _ => rfl) rfl (fun _ => rfl)
        fun _ busy => busy
  | serverFailed finishing | serverUpdated finishing =>
      refine configured.of_frame (fun _ => .refl _) rfl (fun _ => rfl) rfl (fun _ => rfl)
        fun k busy => ?_
      rw [awaiting_startLoop (by simp [finishing.free])] at busy
      exact busy

/-- The success loop starts with the time delta just accepted, and nothing but its own iterations
happens in it. -/
theorem Measured.action {e : Event P ι} (measured : w.Measured) (action : Action w e w') :
    w'.Measured := by
  intro rest inLoop'
  cases action with
  | @notifyUpdated h tail inLoop =>
      have before := measured _ inLoop
      simpa [note, justAccepted] using before
  | serverUpdated => simp [justAccepted]
  | arrived => exact measured rest inLoop'
  | postNow user | postDeferred user =>
      have inLoop : w.control = .updating rest := by simpa using inLoop'
      rw [inLoop] at user
      cases user
  | setSecret long user | setDefaultSecret long user | configure plain noPost user =>
      have inLoop : w.control = .updating rest := inLoop'
      rw [inLoop] at user
      cases user
  | destroyed loop =>
      have inLoop : w.control = .updating rest := inLoop'
      rw [inLoop] at loop
      cases loop
  | slotNull finishing | slotRetry finishing | serverRetry finishing =>
      have inLoop : w.control = .updating rest := by simpa using inLoop'
      have loop := finishing.loop
      rw [inLoop] at loop
      cases loop
  | postBlocked | returned | resumed | endUpdated | notifyFailed | endFailed | slotOutcome
  | serverFailed => cases inLoop'

/-- The hash in a message is the one its payload has under the effective secret. -/
theorem Configured.hash_message (configured : w.Configured) {secret : Bytes}
    (effective : effectiveSecret h w.trace = some secret) :
    (w.message h).hash =
      P.hmac (secret ++ wordBytes (windowNumber (P.clock w.ticks) w.server.currentTimeDelta))
        (w.message h).payload := by
  rw [← littleEndian_hashSuffix]
  refine calculateHash_eq_hmac ?_ _ _ _
  have own := configured.own h
  have default := configured.default
  unfold effectiveSecret at effective
  cases last : lastSecret h w.trace with
  | some private_ =>
      rw [last] at own effective
      cases effective
      exact .own own
  | none =>
      rw [last] at own effective
      rw [show lastDefaultSecret w.trace = some secret from effective] at default
      exact .default own default

/-- The message `timestampUpdated` hands over, from the fields the latest post left. -/
structure MessageOf (w : World P ι) (t : Trace P ι) (h : ι) (m : Message P) : Prop where
  request : ∃ base endpoint content, lastPost h t = some (base, endpoint, content) ∧
    m.IsFor base endpoint content
  signed : ∀ secret, effectiveSecret h t = some secret →
    m.hash = P.hmac
      (secret ++ wordBytes (windowNumber (P.clock w.ticks) w.server.currentTimeDelta)) m.payload

theorem Configured.isFor_message {base : P.Url} {endpoint : String} {content : Content P}
    (configured : w.Configured) (last : lastPost h w.trace = some (base, endpoint, content)) :
    (w.message h).IsFor base endpoint content := by
  obtain ⟨kind, url, payload⟩ := configured.request h base endpoint content last
  refine Message.isFor_iff.mpr ⟨url, payload, ?_⟩
  rw [← kind]
  rfl

theorem Configured.messageOf (configured : w.Configured) (posted : lastPost h w.trace ≠ none) :
    MessageOf w w.trace h (w.message h) where
  request := by
    obtain ⟨⟨base, endpoint, content⟩, last⟩ := Option.ne_none_iff_exists'.mp posted
    exact ⟨base, endpoint, content, last, configured.isFor_message last⟩
  signed _ effective := configured.hash_message effective

/-- A slot that starts a retry sends nothing itself. -/
theorem trace_slotRetry (w : World P ι) (k : ι) (r q : ReplyId) :
    ∃ shown : Trace P ι,
      ((((w.enterSlot k r).takePending k q).spendRetry k q).enlist k).trace = shown ++ w.trace ∧
      ∀ h superseded r' m, .sent h superseded r' m ∉ shown := by
  obtain ⟨shown, trace, plain⟩ :=
    trace_enlist (((w.enterSlot k r).takePending k q).spendRetry k q) k
  refine ⟨shown ++ [.retry k q, .slot k r (w.handler k).pendingReply], ?_, ?_⟩
  · rw [trace, List.append_assoc]
    rfl
  · intro h superseded r' m sent
    rcases List.mem_append.mp sent with enlisted | earlier
    · rcases plain _ enlisted with same | ⟨_, _, same⟩ <;> cases same
    · simp at earlier

/-- A message is sent by a `post` that finds no update running, or by the success loop. -/
theorem Action.sent_cases {e : Event P ι} {new : Trace P ι} {superseded : Option ReplyId}
    {m : Message P} (action : Action w e w') (emitted : w'.trace = new ++ w.trace)
    (sent : .sent h superseded r m ∈ new) :
    (∃ endpoint content, w.server.pendingReply = none ∧ (w.handler h).kind = content.kind ∧
        m = (w.beginPost h endpoint content).message h ∧
        w'.trace = .sent h superseded r m :: (w.beginPost h endpoint content).trace) ∨
      (∃ rest, w.control = .updating (h :: rest) ∧ m = w.message h ∧
        w'.trace = .sent h superseded r m :: .notified h true :: w.trace) := by
  have only : ∀ shown : Trace P ι, w'.trace = shown ++ w.trace →
      .sent h superseded r m ∈ shown := by
    intro shown trace
    rwa [← List.append_cancel_right (emitted.symm.trans trace)]
  cases action with
  | @postNow k endpoint content user free idle kind =>
      have trace := trace_timestampUpdated (w.beginPost k endpoint content) k
      have mem := only [_, _] trace
      simp only [List.mem_cons, List.not_mem_nil, or_false, reduceCtorEq] at mem
      cases mem
      exact .inl ⟨endpoint, content, idle, kind, rfl, trace⟩
  | @notifyUpdated k rest inLoop =>
      have trace := trace_timestampUpdated (w.note (.notified k true)) k
      have mem := only [_, _] trace
      simp only [List.mem_cons, List.not_mem_nil, or_false, reduceCtorEq] at mem
      cases mem
      exact .inr ⟨rest, inLoop, rfl, trace⟩
  | configure | returned | resumed | arrived | destroyed => exact absurd (only [] rfl) (by simp)
  | postBlocked | setSecret | setDefaultSecret | endUpdated | endFailed | slotNull =>
      exact absurd (only [_] rfl) (by simp)
  | postDeferred | notifyFailed | slotOutcome | serverRetry | serverFailed =>
      exact absurd (only [_, _] rfl) (by simp)
  | serverUpdated => exact absurd (only [_, _, _] rfl) (by simp)
  | slotRetry =>
      obtain ⟨shown, trace, unsent⟩ := trace_slotRetry w _ _ _
      exact absurd (only shown trace) (unsent h superseded r m)

/-- A message is sent for the post that was the latest when it was sent. -/
def SentForLatest : Observation P ι → Trace P ι → Prop
  | .sent h _ _ m, past => ∃ base endpoint content,
      lastPost h past = some (base, endpoint, content) ∧ m.IsFor base endpoint content
  | _, _ => True

/-- A step sends for the latest post only. -/
theorem Configured.sentForLatest_step {e : Event P ι} (configured : w.Configured)
    (action : Action w e w') (before : Always SentForLatest w.trace) :
    Always SentForLatest w'.trace := by
  cases action with
  | @postNow h endpoint content user free idle kind =>
      have message := (configured.beginPost endpoint kind).messageOf
        (lastPost_beginPost w h endpoint content)
      rw [trace_timestampUpdated]
      exact ⟨message.request, trivial, before⟩
  | @notifyUpdated h rest inLoop =>
      have posted : lastPost h w.trace ≠ none := by
        refine configured.posted h (.inr ?_)
        rw [awaiting_updating inLoop]
        exact List.mem_cons_self
      have emitted := trace_timestampUpdated (w.note (.notified h true)) h
      dsimp only
      rw [emitted]
      exact ⟨(configured.messageOf posted).request, trivial, before⟩
  | slotRetry =>
      rw [always_enlist (fun _ => trivial) fun _ _ _ => trivial]
      exact ⟨trivial, trivial, before⟩
  | configure | returned | resumed | arrived | destroyed => exact before
  | postBlocked | setSecret | setDefaultSecret | endUpdated | endFailed | slotNull =>
      exact ⟨trivial, before⟩
  | postDeferred | notifyFailed | slotOutcome | serverRetry | serverFailed =>
      exact ⟨trivial, trivial, before⟩
  | serverUpdated => exact ⟨trivial, trivial, trivial, before⟩

/-- Every message of a run carries the URL and the payload of its post. -/
theorem Initial.sentForLatest {es : List (Event P ι)} (init : w.Initial)
    (run : FreeRun World.step w es w') : Always SentForLatest w'.trace := by
  have kept : (w'.Inv ∧ w'.Configured) ∧ Always SentForLatest w'.trace :=
    run.invariant (I := fun w => (w.Inv ∧ w.Configured) ∧ Always SentForLatest w.trace)
      (fun all _ stepped =>
        have action := step_action all.1.1 stepped
        ⟨⟨all.1.1.step stepped, all.1.2.action action⟩,
          all.1.2.sentForLatest_step action all.2⟩)
      ⟨⟨init.inv, init.configured⟩, by rw [init.trace]; trivial⟩
  exact kept.2

/-- **Every transmitted message is that of the latest post, signed under the effective secret with
the time delta in force; and it is sent with no update running, or by the success loop with the time
delta just accepted.** -/
theorem messages_signed {v v' : World P ι} {es : List (Event P ι)} {e : Event P ι}
    {new : Trace P ι} {superseded : Option ReplyId} {m : Message P} (init : w.Initial)
    (run : FreeRun World.step w es v) (stepped : v.step e = some v')
    (emitted : v'.trace = new ++ v.trace) (sent : .sent h superseded r m ∈ new) :
    (∃ base endpoint content, lastPost h v'.trace = some (base, endpoint, content) ∧
        m.IsFor base endpoint content) ∧
      (∀ secret, effectiveSecret h v'.trace = some secret →
        m.hash = P.hmac
          (secret ++ wordBytes (windowNumber (P.clock v.ticks) v.server.currentTimeDelta))
          m.payload) ∧
      (v.server.pendingReply = none ∨
        (∃ rest, v.control = .updating (h :: rest)) ∧
          justAccepted v.trace = some v.server.currentTimeDelta) := by
  have kept : v.Inv ∧ v.Configured ∧ v.Measured :=
    run.invariant (I := fun w => w.Inv ∧ w.Configured ∧ w.Measured)
      (fun all _ stepped =>
        have action := step_action all.1 stepped
        ⟨all.1.step stepped, all.2.1.action action, all.2.2.action action⟩)
      ⟨init.inv, init.configured, init.measured⟩
  obtain ⟨inv, configured, measured⟩ := kept
  rcases (step_action inv stepped).sent_cases emitted sent with
    ⟨endpoint, content, idle, kind, rfl, trace⟩ | ⟨rest, inLoop, rfl, trace⟩
  · have message := (configured.beginPost endpoint kind).messageOf
      (lastPost_beginPost v h endpoint content)
    rw [trace]
    exact ⟨message.request, message.signed, .inl idle⟩
  · have posted : lastPost h v.trace ≠ none := by
      refine configured.posted h (.inr ?_)
      rw [awaiting_updating inLoop]
      exact List.mem_cons_self
    have message := configured.messageOf posted
    rw [trace]
    exact ⟨message.request, message.signed, .inr ⟨⟨rest, inLoop⟩, measured _ inLoop⟩⟩

/-- The message of a post that failed authentication, sent again after the update: its key is the
default secret and the window of the time delta the update brought. -/
theorem retried_message_signed :
    ∃ v v' : World Platform.sample Bool, ∃ m,
      FreeRun World.step Sample.world
        ([.call (.setDefaultSecret (List.replicate secretLength 7)), Sample.postByte 1] ++
          Sample.completes 0 Sample.rejected ++ Sample.completes 1 (Sample.answered 5)) v ∧
      v.step .next = some v' ∧
      v'.trace = [.sent false (v.handler false).pendingReply v.network.next m,
        .notified false true] ++ v.trace ∧
      v.server.currentTimeDelta = 5 ∧
      effectiveSecret false v'.trace = some (List.replicate secretLength 7) ∧
      m.hash = Sha256.hmac (List.replicate secretLength 7 ++
        wordBytes (windowNumber (Platform.sample.clock v.ticks) v.server.currentTimeDelta))
        m.payload := by
  have reached : ∃ v, FreeRun World.step Sample.world
      ([.call (.setDefaultSecret (List.replicate secretLength 7)), Sample.postByte 1] ++
        Sample.completes 0 Sample.rejected ++ Sample.completes 1 (Sample.answered 5)) v ∧
      v.control = .updating [false] ∧ v.server.currentTimeDelta = 5 ∧
      effectiveSecret false v.trace = some (List.replicate secretLength 7) :=
    ⟨_, run_of_isSome (by decide), by decide, by decide, by decide⟩
  obtain ⟨v, run, inLoop, delta, effective⟩ := reached
  have moved : ∃ v' m, v.step .next = some v' ∧
      v'.trace = [.sent false (v.handler false).pendingReply v.network.next m,
        .notified false true] ++ v.trace := by
    refine ⟨{ (v.note (.notified false true)).timestampUpdated false with control := .updating [] },
      _, ?_, trace_timestampUpdated (v.note (.notified false true)) false⟩
    rw [step, iterate, inLoop]
  obtain ⟨v', m, stepped, trace⟩ := moved
  have effective' : effectiveSecret false v'.trace = some (List.replicate secretLength 7) := by
    rw [trace]
    exact effective
  have signed := messages_signed Sample.world_initial run stepped trace List.mem_cons_self
  exact ⟨v, v', m, run, stepped, trace, delta, effective', signed.2.1 _ effective'⟩

end World

end RestApiOut
