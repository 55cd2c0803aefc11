import Ipfusch.Dialogue
import Ipfusch.Handshake

/-!
# The handshake on a connection

The client's handshake and the server's, on the two ends of a connection that carries their frames
in pieces of any size, which arrive at any later time. It is a dialogue of two programs that wait
for what has not arrived. After a handler has failed, `run_quic_server` drops the connection, and
what has not arrived is lost. Over TCP only the socket is closed, and all that was written arrives.

`handshakeRun_settles` : in every run, the server accepts only a client that has its token, and once
the client's handshake has ended both sides know whether the session is open. Nothing that was
written is unread then, so that the data loops start on empty streams, unless the server has refused
the client and dropped the connection. Until then a step is possible, and only so many are.
-/

namespace Ipfusch

open ByteConn

/-! ## Programs that wait -/

theorem causal_writeControlFrameAsync (msg : ControlMessage) :
    Causal (writeControlFrameAsync msg) := by
  unfold writeControlFrameAsync
  dsimp only
  split_ifs
  · exact ((causal_writeAll _).context _).bind fun _ => (causal_writeAll _).context _
  · exact causal_fail _

theorem causal_readControlFrameAsync : Causal readControlFrameAsync := by
  refine ((causal_readExact 4).context _).bind fun lenBuf => ?_
  refine ((causal_readExact _).context _).bind fun payload => ?_
  split
  · exact causal_pure _
  · exact causal_fail _

theorem prompt_readControlFrameAsync : Prompt readControlFrameAsync := by
  refine ((prompt_readExact 4).context _).bind fun lenBuf => ?_
  refine ((prompt_readExact _).context _).bind fun payload => ?_
  split
  · exact prompt_pure _
  · exact prompt_fail _

theorem prompt_writeControlFrameAsync (msg : ControlMessage) :
    Prompt (writeControlFrameAsync msg) := by
  unfold writeControlFrameAsync
  dsimp only
  split_ifs
  · exact ((prompt_writeAll _).context _).bind fun _ => (prompt_writeAll _).context _
  · exact prompt_fail _

section Handshake

variable (sha256 : List UInt8 → Digest) (t : HandlerTexts) (token : Option String)
  (sessionId : UInt64) (streamId : UInt32) (spec : StreamRunSpec)

theorem causal_controlHandshake :
    Causal (controlHandshake sha256 sessionId streamId spec) := by
  refine (causal_writeControlFrameAsync _).bind fun _ => ?_
  refine (causal_writeControlFrameAsync _).bind fun _ => ?_
  exact causal_readControlFrameAsync.bind fun msg => causal_liftExcept _

theorem prompt_controlHandshake :
    Prompt (controlHandshake sha256 sessionId streamId spec) := by
  refine (prompt_writeControlFrameAsync _).bind fun _ => ?_
  refine (prompt_writeControlFrameAsync _).bind fun _ => ?_
  exact prompt_readControlFrameAsync.bind fun msg => prompt_liftExcept _

/-- A client that goes on has read an answer, and does not look at what comes after it. -/
theorem controlHandshake_ok_tail {input : List UInt8} {tail : StreamEnd}
    (h : ((controlHandshake sha256 sessionId streamId spec).run
      { input := input, tail := tail }).1 = .ok ()) :
    ((controlHandshake sha256 sessionId streamId spec).after input).1 = .ok () := by
  unfold M.after
  cases htake : takeControlFrame input with
  | none =>
    unfold controlHandshake at h
    obtain ⟨e, rest, he⟩ := parses_readControlFrameAsync.error (c := Conn.mk input tail
      (frame (clientHello sha256 streamId spec) ++ frame (clientStart sessionId spec)) false) htake
    rw [bind_ok (writeControlFrameAsync_run (framed_clientHello sha256 streamId spec).2 _),
      bind_ok (writeControlFrameAsync_run (framed_clientStart sessionId spec).2 _),
      List.nil_append, bind_error he] at h
    cases h
  | some r =>
    obtain ⟨msg, rest⟩ := r
    rw [controlHandshake_run sha256 sessionId streamId spec htake] at h ⊢
    cases hack : validateAck msg with
    | ok _ => rfl
    | error e =>
      rw [hack] at h
      cases h

theorem causal_serverHandshake : Causal (serverHandshake sha256 t token) := by
  refine (causal_readControlFrameAsync.context _).bind fun hello => ?_
  refine (causal_readControlFrameAsync.context _).bind fun start => ?_
  obtain ⟨sessionId, accepted, reason⟩ := sessionOutcome sha256 token hello start
  refine ((causal_writeControlFrameAsync _).context _).bind fun _ => ?_
  split_ifs
  · exact causal_pure _
  · exact causal_fail _

/-! ## The dialogue -/

/-- What the client, and what the server writes. -/
def handshakeSide : Bool → List UInt8 → List UInt8
  | true, input => ((controlHandshake sha256 sessionId streamId spec).after input).2.output
  | false, input => ((serverHandshake sha256 t token).after input).2.output

/-- The server's answer. -/
def serverAck : ControlMessage :=
  let outcome := sessionOutcome sha256 token (clientHello sha256 streamId spec)
    (clientStart sessionId spec)
  .ack outcome.1 outcome.2.1 outcome.2.2

/-- All that is written. -/
def handshakeSaid : Bool → List UInt8
  | true => clientRequest sha256 sessionId streamId spec
  | false => frame (serverAck sha256 token sessionId streamId spec)

/-- The server's token is the client's, or it has none. -/
def SameToken (clientToken : Option String) : Prop :=
  token = none ∨ clientToken.map (hashToken sha256) = token.map (hashToken sha256)

/-- The client's handshake on the answer. -/
theorem controlHandshake_after_ack : ∃ result,
    (controlHandshake sha256 sessionId streamId spec).after
        (frame (serverAck sha256 token sessionId streamId spec)) =
      (result, ⟨[], .silent, clientRequest sha256 sessionId streamId spec, false⟩) ∧
    result ≠ .error .blocked ∧ (result = .ok () ↔ SameToken sha256 token spec.token) := by
  have htake := takeControlFrame_frame (framed_outcome sha256 token
    (clientHello sha256 streamId spec) (clientStart sessionId spec)) []
  rw [List.append_nil] at htake
  have hrun := controlHandshake_run sha256 sessionId streamId spec
    (c := Conn.mk (frame (serverAck sha256 token sessionId streamId spec)) .silent [] false) htake
  rw [List.nil_append] at hrun
  have hopens := opens_client sha256 token sessionId streamId spec
  rcases sessionOutcome_accepted sha256 token (clientHello sha256 streamId spec)
    (clientStart sessionId spec) with ⟨hyes, hout⟩ | ⟨hno, hout⟩
  · rw [hout] at hrun
    exact ⟨_, hrun, nofun, fun _ => hopens.mp hyes, fun _ => rfl⟩
  · rw [hout] at hrun
    exact ⟨_, hrun, nofun, nofun, fun hsame => absurd (hopens.mpr hsame) hno⟩

/-- The server's handshake on the request. -/
theorem serverHandshake_after_request : ∃ result,
    (serverHandshake sha256 t token).after (clientRequest sha256 sessionId streamId spec) =
      (result, ⟨[], .silent, frame (serverAck sha256 token sessionId streamId spec), false⟩) ∧
    result ≠ .error .blocked ∧ (result = .ok () ↔ SameToken sha256 token spec.token) := by
  have htake := takeSession_clientRequest sha256 sessionId streamId spec []
  rw [List.append_nil] at htake
  have hrun := serverHandshake_some sha256 t token
    (c := { input := clientRequest sha256 sessionId streamId spec, tail := .silent }) htake
  rw [List.nil_append] at hrun
  have hopens := opens_client sha256 token sessionId streamId spec
  rcases sessionOutcome_accepted sha256 token (clientHello sha256 streamId spec)
    (clientStart sessionId spec) with ⟨hyes, hout⟩ | ⟨hno, hout⟩
  · exact ⟨_, hrun, by simp [hout], fun _ => hopens.mp hyes, fun _ => by simp [hout]⟩
  · refine ⟨_, hrun, by simp [hout], fun h => ?_, fun hsame => absurd (hopens.mpr hsame) hno⟩
    simp [hout] at h

/-- Before the server has read the request, it has not written anything. -/
theorem serverHandshake_silent {input : List UInt8}
    (h : ((serverHandshake sha256 t token).after input).1 = .error .blocked) :
    ((serverHandshake sha256 t token).after input).2.output = [] := by
  unfold M.after at h ⊢
  cases htake : takeSession input with
  | none =>
    obtain ⟨e, rest, he⟩ := serverHandshake_none sha256 t token
      (c := { input := input, tail := .silent }) htake
    rw [he]
  | some r =>
    obtain ⟨⟨hello, start⟩, rest⟩ := r
    rw [serverHandshake_some sha256 t token htake] at h
    dsimp only at h
    split_ifs at h
    cases h

theorem handshakeScript : Dialogue.Script (handshakeSide sha256 t token sessionId streamId spec)
    (handshakeSaid sha256 token sessionId streamId spec) := by
  have hclient : handshakeSide sha256 t token sessionId streamId spec true
      (frame (serverAck sha256 token sessionId streamId spec)) =
        clientRequest sha256 sessionId streamId spec := by
    obtain ⟨result, hresult, -⟩ := controlHandshake_after_ack sha256 token sessionId streamId spec
    exact congrArg (fun r => r.2.output) hresult
  have hserver : handshakeSide sha256 t token sessionId streamId spec false
      (clientRequest sha256 sessionId streamId spec) =
        frame (serverAck sha256 token sessionId streamId spec) := by
    obtain ⟨result, hresult, -⟩ :=
      serverHandshake_after_request sha256 t token sessionId streamId spec
    exact congrArg (fun r => r.2.output) hresult
  have hcausal : ∀ b, Dialogue.Causal (handshakeSide sha256 t token sessionId streamId spec b) := by
    intro b
    cases b with
    | true => exact (causal_controlHandshake sha256 sessionId streamId spec).output_isPrefix
    | false => exact (causal_serverHandshake sha256 t token).output_isPrefix
  refine ⟨hcausal, fun b => ?_, fun l hl hpart => ?_⟩
  · cases b with
    | true => exact hclient
    | false => exact hserver
  · -- The client writes its request before it reads.
    have hsilent : handshakeSide sha256 t token sessionId streamId spec true [] =
        clientRequest sha256 sessionId streamId spec :=
      controlHandshake_silent sha256 sessionId streamId spec
    have hrequest : clientRequest sha256 sessionId streamId spec <+: l true := by
      have hmore := hcausal true (List.nil_prefix (l := l false))
      have hreply : handshakeSide sha256 t token sessionId streamId spec true (l false) = l true :=
        hl true
      rwa [hsilent, hreply] at hmore
    have htrue : l true = clientRequest sha256 sessionId streamId spec :=
      (hpart true).eq_of_length_le hrequest.length_le
    funext b
    cases b with
    | true => exact htrue
    | false =>
      have hfalse : handshakeSide sha256 t token sessionId streamId spec false (l true) = l false :=
        hl false
      rw [htrue, hserver] at hfalse
      exact hfalse.symm

/-! ## Runs -/

/-- The two handshakes and their connection. -/
structure HandshakeState where
  talk : Dialogue.State UInt8
  /-- The server has dropped the connection. -/
  dropped : Bool

/-- What can come next. -/
inductive HandshakeAction
  | talk (a : Dialogue.Action)
  /-- The server's handler has failed, and the connection is dropped. -/
  | drop
  deriving DecidableEq, Repr

/-- A step that moves something, or drops the connection. -/
def HandshakeAction.moves : HandshakeAction → Bool
  | .talk a => a.moves
  | .drop => true

/-- How the client's handshake has ended, if it has. After a drop, nothing more arrives. -/
def clientEnd (s : HandshakeState) : Except (Stop NetError) Unit :=
  ((controlHandshake sha256 sessionId streamId spec).run
    { input := s.talk.input true, tail := if s.dropped then .broken else .silent }).1

/-- How the server's handshake has ended, if it has. -/
def serverEnd (s : HandshakeState) : Except (Stop NetError) Unit :=
  ((serverHandshake sha256 t token).after (s.talk.input false)).1

/-- The server has written its answer, and its handler has failed. -/
def serverFailed (s : HandshakeState) : Bool :=
  match serverEnd sha256 t token s with
  | .error (.failed _) =>
    s.talk.sent false == ((serverHandshake sha256 t token).after (s.talk.input false)).2.output
  | _ => false

/-- The client's handshake against the server's, on a connection that is dropped, if it `drops`,
when the handler has failed. -/
def handshakeRun (drops : Bool) : Machine HandshakeState HandshakeAction Empty where
  init := ⟨(Dialogue.machine (handshakeSide sha256 t token sessionId streamId spec)).init, false⟩
  step s
    | .talk a =>
      if s.dropped then none
      else (Dialogue.step (handshakeSide sha256 t token sessionId streamId spec) s.talk a).map
        fun talk => (⟨talk, false⟩, [])
    | .drop =>
      if drops = true ∧ s.dropped = false ∧ serverFailed sha256 t token s = true then
        some (⟨s.talk, true⟩, [])
      else none

/-- How much can still happen. -/
def handshakeLeft (s : HandshakeState) : ℕ :=
  Dialogue.left (handshakeSaid sha256 token sessionId streamId spec) s.talk +
    if s.dropped then 0 else 1

/-- Both sides know whether the session is open. All that was written is read, unless the server has
dropped the connection of a client that it has refused. -/
structure HandshakeSettled (s : HandshakeState) : Prop where
  client : clientEnd sha256 sessionId streamId spec s = .ok () ↔ SameToken sha256 token spec.token
  server : serverEnd sha256 t token s = .ok () ↔ SameToken sha256 token spec.token
  dropped : s.dropped = true → ¬SameToken sha256 token spec.token
  allRead : s.dropped = false →
    Dialogue.Over (handshakeSaid sha256 token sessionId streamId spec) s.talk
  clientUnread : s.dropped = false →
    ((controlHandshake sha256 sessionId streamId spec).after (s.talk.input true)).2.input = []
  serverUnread : ((serverHandshake sha256 t token).after (s.talk.input false)).2.input = []

variable {sha256 t token sessionId streamId spec} {drops : Bool} {s s' : HandshakeState}
  {o : List Empty}

/-- What is sent is what the two handshakes say, and a connection that was dropped has a handler
that has failed. -/
structure HandshakeSound (sha256 : List UInt8 → Digest) (t : HandlerTexts) (token : Option String)
    (sessionId : UInt64) (streamId : UInt32) (spec : StreamRunSpec) (s : HandshakeState) :
    Prop where
  talk : Dialogue.Sound (handshakeSide sha256 t token sessionId streamId spec)
    (handshakeSaid sha256 token sessionId streamId spec) s.talk
  dropped : s.dropped = true → ∃ e, serverEnd sha256 t token s = .error (.failed e)

/-- Each step keeps this, and one that moves something leaves less to happen. -/
theorem HandshakeSound.step (h : HandshakeSound sha256 t token sessionId streamId spec s)
    {a : HandshakeAction}
    (hs : (handshakeRun sha256 t token sessionId streamId spec drops).step s a = some (s', o)) :
    HandshakeSound sha256 t token sessionId streamId spec s' ∧
      handshakeLeft sha256 token sessionId streamId spec s' + (if a.moves = true then 1 else 0) ≤
        handshakeLeft sha256 token sessionId streamId spec s := by
  have hscript := handshakeScript sha256 t token sessionId streamId spec
  unfold handshakeRun at hs
  cases a with
  | talk a =>
    dsimp only at hs
    split_ifs at hs with hdropped
    obtain ⟨talk, htalk, heq⟩ := Option.map_eq_some_iff.mp hs
    obtain ⟨rfl, -⟩ := Prod.mk.inj heq
    have hleft := Dialogue.left_step hscript h.talk htalk
    refine ⟨⟨h.talk.step hscript htalk, nofun⟩, ?_⟩
    unfold handshakeLeft HandshakeAction.moves
    rw [if_neg hdropped]
    dsimp only
    rw [if_neg Bool.false_ne_true]
    omega
  | drop =>
    dsimp only at hs
    split_ifs at hs with hguard
    obtain ⟨-, hdropped, hfailed⟩ := hguard
    obtain ⟨rfl, -⟩ := Prod.mk.inj (Option.some.inj hs)
    refine ⟨⟨h.talk, fun _ => ?_⟩, ?_⟩
    · unfold serverFailed at hfailed
      split at hfailed
      · exact ⟨_, ‹_›⟩
      · cases hfailed
    · unfold handshakeLeft HandshakeAction.moves
      rw [hdropped]
      exact le_rfl

theorem handshakeSound_reach
    (h : (handshakeRun sha256 t token sessionId streamId spec drops).Reach o s) :
    HandshakeSound sha256 t token sessionId streamId spec s := by
  refine h.invariant (I := fun _ s => HandshakeSound sha256 t token sessionId streamId spec s)
    ⟨?_, fun h => absurd h Bool.false_ne_true⟩ fun _ hs hstep => (hs.step hstep).1
  exact Dialogue.sound_reach (handshakeScript sha256 t token sessionId streamId spec) .start

/-- A server that has ended its handshake has read the whole request. -/
theorem input_of_serverEnd (hsound : HandshakeSound sha256 t token sessionId streamId spec s)
    (hended : serverEnd sha256 t token s ≠ .error .blocked) :
    s.talk.input false = clientRequest sha256 sessionId streamId spec := by
  obtain ⟨rest, hrest⟩ : s.talk.input false <+: clientRequest sha256 sessionId streamId spec :=
    (Dialogue.input_isPrefix s.talk false).trans (hsound.talk.said true)
  obtain ⟨result, hresult, -⟩ :=
    serverHandshake_after_request sha256 t token sessionId streamId spec
  obtain ⟨-, hunread⟩ := (causal_serverHandshake sha256 t token).after_append rest hended
  rw [hrest, hresult] at hunread
  have hnil := (List.append_eq_nil_iff.mp hunread.symm).2
  rw [← hrest, hnil, List.append_nil]

/-- Then it has accepted the client exactly if the token is right, and nothing is unread. -/
theorem server_of_serverEnd (hsound : HandshakeSound sha256 t token sessionId streamId spec s)
    (hended : serverEnd sha256 t token s ≠ .error .blocked) :
    (serverEnd sha256 t token s = .ok () ↔ SameToken sha256 token spec.token) ∧
      ((serverHandshake sha256 t token).after (s.talk.input false)).2.input = [] := by
  obtain ⟨result, hresult, -, hserver⟩ :=
    serverHandshake_after_request sha256 t token sessionId streamId spec
  unfold serverEnd
  rw [input_of_serverEnd hsound hended, hresult]
  exact ⟨hserver, rfl⟩

/-- A client that has ended its handshake on what has arrived has read the whole answer. -/
theorem input_of_clientEnd (hsound : HandshakeSound sha256 t token sessionId streamId spec s)
    (hended : ((controlHandshake sha256 sessionId streamId spec).after
      (s.talk.input true)).1 ≠ .error .blocked) :
    s.talk.input true = frame (serverAck sha256 token sessionId streamId spec) := by
  obtain ⟨rest, hrest⟩ :
      s.talk.input true <+: frame (serverAck sha256 token sessionId streamId spec) :=
    (Dialogue.input_isPrefix s.talk true).trans (hsound.talk.said false)
  obtain ⟨result, hresult, -⟩ := controlHandshake_after_ack sha256 token sessionId streamId spec
  obtain ⟨-, hunread⟩ := (causal_controlHandshake sha256 sessionId streamId spec).after_append
    rest hended
  rw [hrest, hresult] at hunread
  have hnil := (List.append_eq_nil_iff.mp hunread.symm).2
  rw [← hrest, hnil, List.append_nil]

/-- A client whose connection was dropped does not go on, whatever has arrived before. -/
theorem handshakeSettled_of_dropped
    (hsound : HandshakeSound sha256 t token sessionId streamId spec s)
    (hdropped : s.dropped = true) :
    HandshakeSettled sha256 t token sessionId streamId spec s := by
  obtain ⟨e, he⟩ := hsound.dropped hdropped
  obtain ⟨hserver, hunread⟩ := server_of_serverEnd hsound (by rw [he]; nofun)
  have hother : ¬SameToken sha256 token spec.token := by
    rw [← hserver, he]
    nofun
  refine ⟨⟨fun hok => ?_, fun hsame => absurd hsame hother⟩, hserver, fun _ => hother, ?_, ?_,
    hunread⟩
  · have hafter := controlHandshake_ok_tail sha256 sessionId streamId spec hok
    obtain ⟨result, hresult, -, hclient⟩ :=
      controlHandshake_after_ack sha256 token sessionId streamId spec
    rw [input_of_clientEnd hsound (by rw [hafter]; nofun), hresult] at hafter
    exact hclient.mp hafter
  · rw [hdropped]
    nofun
  · rw [hdropped]
    nofun

/-- Once the client's handshake has ended, the server's has, too. -/
theorem handshakeSettled_of_clientEnd
    (hsound : HandshakeSound sha256 t token sessionId streamId spec s)
    (hended : clientEnd sha256 sessionId streamId spec s ≠ .error .blocked) :
    HandshakeSettled sha256 t token sessionId streamId spec s := by
  cases hdropped : s.dropped with
  | true => exact handshakeSettled_of_dropped hsound hdropped
  | false =>
    have hclientEnd : clientEnd sha256 sessionId streamId spec s =
        ((controlHandshake sha256 sessionId streamId spec).after (s.talk.input true)).1 := by
      unfold clientEnd M.after
      rw [hdropped]
      rfl
    rw [hclientEnd] at hended
    have hinput := input_of_clientEnd hsound hended
    obtain ⟨hack, hackGot⟩ := hsound.talk.of_input (b := false) hinput
    have hack : s.talk.sent false = frame (serverAck sha256 token sessionId streamId spec) := hack
    have hserved : serverEnd sha256 t token s ≠ .error .blocked := by
      intro hblocked
      have hnil := serverHandshake_silent sha256 t token hblocked
      have hsent : s.talk.sent false <+:
          ((serverHandshake sha256 t token).after (s.talk.input false)).2.output :=
        hsound.talk.sent false
      rw [hnil, List.prefix_nil, hack, frame, List.append_eq_nil_iff] at hsent
      exact absurd (congrArg List.length hsent.1) (by rw [Bytes.length_le]; decide)
    obtain ⟨hserver, hunread⟩ := server_of_serverEnd hsound hserved
    obtain ⟨result, hresult, -, hclient⟩ :=
      controlHandshake_after_ack sha256 token sessionId streamId spec
    refine ⟨?_, hserver, ?_, fun _ b => ?_, fun _ => ?_, hunread⟩
    · rw [hclientEnd, hinput, hresult]
      exact hclient
    · rw [hdropped]
      exact fun h => absurd h Bool.false_ne_true
    · cases b with
      | true => exact hsound.talk.of_input (input_of_serverEnd hsound hserved)
      | false => exact ⟨hack, hackGot⟩
    · rw [hinput, hresult]

/-- A client that waits has a connection, and the handshakes are not over. -/
theorem exists_moves_of_blocked
    (hsound : HandshakeSound sha256 t token sessionId streamId spec s)
    (hblocked : clientEnd sha256 sessionId streamId spec s = .error .blocked) :
    ∃ a s', a.moves = true ∧
      (handshakeRun sha256 t token sessionId streamId spec drops).step s a = some (s', []) ∧
      ∀ b, (s'.talk.sent b).length - s'.talk.got b ≤
        max ((s.talk.sent b).length - s.talk.got b) 1 := by
  unfold clientEnd at hblocked
  have hdropped : s.dropped = false := by
    refine Bool.eq_false_of_not_eq_true fun hdropped => ?_
    rw [hdropped] at hblocked
    have hprompt := prompt_controlHandshake sha256 sessionId streamId spec
      { input := s.talk.input true, tail := .broken } nofun
    exact hprompt.1 hblocked
  have hover : ¬Dialogue.Over (handshakeSaid sha256 token sessionId streamId spec) s.talk := by
    intro hover
    obtain ⟨hsent, hgot⟩ := hover false
    have hinput : s.talk.input true = frame (serverAck sha256 token sessionId streamId spec) := by
      rw [Dialogue.State.input, Bool.not_true, hsent, hgot, List.take_length]
      rfl
    obtain ⟨result, hresult, hended, -⟩ :=
      controlHandshake_after_ack sha256 token sessionId streamId spec
    have hafter : ((controlHandshake sha256 sessionId streamId spec).after
        (s.talk.input true)).1 = .error .blocked := by
      rwa [hdropped] at hblocked
    rw [hinput, hresult] at hafter
    exact hended hafter
  obtain ⟨a, talk, hmoves, hstep, hroom⟩ := Dialogue.exists_moves
    (handshakeScript sha256 t token sessionId streamId spec) hsound.talk hover
  refine ⟨.talk a, ⟨talk, false⟩, hmoves, ?_, hroom⟩
  unfold handshakeRun
  dsimp only
  rw [hdropped, if_neg Bool.false_ne_true, hstep]
  rfl

/-- In every run of the client's handshake against the server's, in whatever pieces and order their
frames are sent and received, and whether or not the connection is dropped when the server's handler
has failed : the server accepts only if it has the client's token or none. Once the client's
handshake has ended, the client goes on exactly if the server does, exactly if the token is right,
and all that was written is read, unless the token is wrong and the connection was dropped. Until
then something can be sent or received, within any positive capacities of the streams, and no more
happens than what is left. -/
theorem handshakeRun_settles
    (h : (handshakeRun sha256 t token sessionId streamId spec drops).Reach o s) :
    (serverEnd sha256 t token s = .ok () → SameToken sha256 token spec.token) ∧
    (clientEnd sha256 sessionId streamId spec s ≠ .error .blocked →
      HandshakeSettled sha256 t token sessionId streamId spec s) ∧
    (clientEnd sha256 sessionId streamId spec s = .error .blocked →
      ∃ a s', a.moves = true ∧
        (handshakeRun sha256 t token sessionId streamId spec drops).step s a = some (s', []) ∧
        ∀ b, (s'.talk.sent b).length - s'.talk.got b ≤
          max ((s.talk.sent b).length - s.talk.got b) 1) ∧
    ∀ as s' o', (handshakeRun sha256 t token sessionId streamId spec drops).exec s as =
        some (s', o') →
      as.countP HandshakeAction.moves + handshakeLeft sha256 token sessionId streamId spec s' ≤
        handshakeLeft sha256 token sessionId streamId spec s := by
  have hsound := handshakeSound_reach h
  refine ⟨fun hok => ?_, handshakeSettled_of_clientEnd hsound, exists_moves_of_blocked hsound, ?_⟩
  · exact (server_of_serverEnd hsound (by rw [hok]; nofun)).1.mp hok
  · intro as s' o' hexec
    exact ((handshakeRun sha256 t token sessionId streamId spec drops).exec_measure
      (P := fun _ => True) (I := HandshakeSound sha256 t token sessionId streamId spec)
      (handshakeLeft sha256 token sessionId streamId spec) HandshakeAction.moves
      (fun hs _ hstep => hs.step hstep) hsound (fun _ _ => trivial) hexec).2

end Handshake

/-- A stream with a token. -/
def secretSpec : StreamRunSpec :=
  ⟨7, 0, .tcp, 10, 0, 4, none, some "secret", 5⟩

/-- SHA-256 on `"secret"`, the only text that is hashed here. -/
def secretHash (_ : List UInt8) : Digest :=
  ⟨[43, 184, 13, 83, 123, 29, 163, 227, 139, 211, 3, 97, 170, 133, 86, 134, 189, 224, 234, 205, 113,
    98, 254, 246, 162, 95, 233, 123, 245, 39, 162, 91], rfl⟩

/-- The request arrives in two pieces, and the answer in two others. -/
def secretTalk : List HandshakeAction :=
  [.send true 9, .deliver true 7, .send true 150, .deliver true 152, .send false 3, .deliver false 2,
    .send false 15, .deliver false 16].map .talk

theorem secretTalk_exec :
    ((handshakeRun secretHash tcpTexts (some "secret") 7 0 secretSpec false).exec
      (handshakeRun secretHash tcpTexts (some "secret") 7 0 secretSpec false).init secretTalk).map
        (fun r => decide (clientEnd secretHash 7 0 secretSpec r.1 = .ok ())) = some true := by
  decide +kernel

/-- The same stream without a token. -/
def plainSpec : StreamRunSpec :=
  { secretSpec with transport := .quic, token := none }

/-- Half of the answer arrives before the connection is dropped. -/
def droppedTalk : List HandshakeAction :=
  [.send true 129, .deliver true 129, .send false 40, .deliver false 20].map .talk ++ [.drop]

theorem droppedTalk_exec :
    ((handshakeRun secretHash quicTexts (some "secret") 7 0 plainSpec true).exec
      (handshakeRun secretHash quicTexts (some "secret") 7 0 plainSpec true).init droppedTalk).map
        (fun r => (r.1.dropped,
          decide (clientEnd secretHash 7 0 plainSpec r.1 ≠ .error .blocked))) = some (true, true) := by
  decide +kernel

theorem handshakeRun_settles_secret :
    (∃ o s, (handshakeRun secretHash tcpTexts (some "secret") 7 0 secretSpec false).Reach o s ∧
      clientEnd secretHash 7 0 secretSpec s = .ok () ∧
      HandshakeSettled secretHash tcpTexts (some "secret") 7 0 secretSpec s) ∧
    ∃ o s, (handshakeRun secretHash quicTexts (some "secret") 7 0 plainSpec true).Reach o s ∧
      s.dropped = true ∧ HandshakeSettled secretHash quicTexts (some "secret") 7 0 plainSpec s := by
  constructor
  · obtain ⟨⟨s, o⟩, hexec, hok⟩ := Option.map_eq_some_iff.mp secretTalk_exec
    have hok := of_decide_eq_true hok
    have hreach := Machine.reach_exec hexec
    exact ⟨o, s, hreach, hok, (handshakeRun_settles hreach).2.1 (by rw [hok]; nofun)⟩
  · obtain ⟨⟨s, o⟩, hexec, hshow⟩ := Option.map_eq_some_iff.mp droppedTalk_exec
    obtain ⟨hdropped, hended⟩ := Prod.mk.inj hshow
    have hreach := Machine.reach_exec hexec
    exact ⟨o, s, hreach, hdropped, (handshakeRun_settles hreach).2.1 (of_decide_eq_true hended)⟩

end Ipfusch
