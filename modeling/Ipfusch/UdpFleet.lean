import Ipfusch.Fleet
import Ipfusch.UdpExchange

/-!
# The UDP clients of a server

`udpFleet` is `run_udp_server` with several clients, each of which is `run_stream_udp` with a socket
of its own. They share the server, with its set of authorized peers, and nothing else. Other peers
may send to the server, too.

`udpFleet_reach` : a run of all is a run of `udpSystem` for each client, to which the datagrams of
the others are those of other peers.
-/

namespace Ipfusch

/-- A client, and the network between it and the server. -/
structure UdpMember where
  client : UdpClient
  /-- The datagrams in the client's socket. -/
  socket : List (List UInt8)
  /-- All datagrams the client has sent. -/
  toServer : List (List UInt8)
  /-- All datagrams the server has sent to the client. -/
  toClient : List (List UInt8)

/-- The clients and the server. -/
structure UdpFleet (ι Peer : Type) where
  clock : ℕ
  member : ι → UdpMember
  authorized : Finset Peer
  /-- The server is in its loop. -/
  serving : Bool

section Fleet

variable {n : ℕ} {Peer : Type}

/-- What a client has to do with. -/
def UdpFleet.view {ι : Type} (s : UdpFleet ι Peer) (i : ι) : UdpState Peer where
  clock := s.clock
  client := (s.member i).client
  socket := (s.member i).socket
  toServer := (s.member i).toServer
  authorized := s.authorized
  serving := s.serving
  toClient := (s.member i).toClient

/-- The others, after a step of a client. -/
def UdpFleet.put {ι : Type} [DecidableEq ι] (s : UdpFleet ι Peer) (i : ι) (u : UdpState Peer) :
    UdpFleet ι Peer where
  clock := u.clock
  member := Function.update s.member i ⟨u.client, u.socket, u.toServer, u.toClient⟩
  authorized := u.authorized
  serving := u.serving

@[simp] theorem UdpFleet.view_put_self {ι : Type} [DecidableEq ι] (s : UdpFleet ι Peer) (i : ι)
    (u : UdpState Peer) : (s.put i u).view i = u := by
  simp [UdpFleet.view, UdpFleet.put]

theorem UdpFleet.view_put_of_ne {ι : Type} [DecidableEq ι] (s : UdpFleet ι Peer) {i j : ι}
    (hne : j ≠ i) (u : UdpState Peer) : (s.put i u).view j = { s.view j with
      clock := u.clock, authorized := u.authorized, serving := u.serving } := by
  simp [UdpFleet.view, UdpFleet.put, hne]

variable [DecidableEq Peer]

/-- The datagrams of the clients are their own. -/
def fromOther (peer : Fin n ↪ Peer) : UdpAction Peer → Bool
  | .serveOther p _ _ => decide (∀ i, peer i ≠ p)
  | _ => true

variable (sha256 : List UInt8 → Digest)

/-- `run_udp_server` with the clients `spec`, whose sockets have the addresses `peer`. -/
def udpFleet (token : Option String) (spec : Fin n → StreamRunSpec) (peer : Fin n ↪ Peer) :
    Machine (UdpFleet (Fin n) Peer) (Fin n × UdpAction Peer) (Fin n × UdpObs) where
  init := ⟨0, fun _ => ⟨.hello, [], [], []⟩, ∅, true⟩
  step s a :=
    if fromOther peer a.2 then
      (udpStep sha256 token (spec a.1) (peer a.1) (s.view a.1) a.2).map fun r =>
        (s.put a.1 r.1, r.2.map (Prod.mk a.1))
    else none

/-! ## What a client sees -/

/-- What the server does does not depend on who looks. -/
theorem onServe_view (token : Option String) {me me' peer : Peer} (hne : peer ≠ me')
    (frame : List UInt8) (sendOk : Bool) {s s' : UdpState Peer}
    (hauthorized : s'.authorized = s.authorized) (hserving : s'.serving = s.serving) :
    onServe sha256 token me' peer frame sendOk s' = { s' with
      authorized := (onServe sha256 token me peer frame sendOk s).authorized
      serving := (onServe sha256 token me peer frame sendOk s).serving } := by
  unfold onServe
  rw [hauthorized]
  dsimp only
  split
  · rw [hserving]
  · cases sendOk
    · rfl
    · simp only [if_true, if_neg hne, hserving]

variable {token : Option String} {spec : Fin n → StreamRunSpec} {peer : Fin n ↪ Peer}
  {t o : List (Fin n × UdpObs)} {s s' : UdpFleet (Fin n) Peer}

/-- A step of the fleet is a step of one client. -/
theorem udpFleet_cases {a : Fin n × UdpAction Peer}
    (hs : (udpFleet sha256 token spec peer).step s a = some (s', o)) :
    fromOther peer a.2 = true ∧ ∃ u o', udpStep sha256 token (spec a.1) (peer a.1) (s.view a.1) a.2 =
      some (u, o') ∧ s' = s.put a.1 u ∧ o = o'.map (Prod.mk a.1) := by
  change (if fromOther peer a.2 = true then
    (udpStep sha256 token (spec a.1) (peer a.1) (s.view a.1) a.2).map fun r =>
      (s.put a.1 r.1, r.2.map (Prod.mk a.1)) else none) = some (s', o) at hs
  split_ifs at hs with hother
  obtain ⟨⟨u, o'⟩, hstep, hs⟩ := Option.map_eq_some_iff.mp hs
  obtain ⟨rfl, rfl⟩ := Prod.mk.inj hs
  exact ⟨hother, u, o', hstep, rfl, rfl⟩

/-- What a step of another client is to a client. -/
theorem udpFleet_other {a : Fin n × UdpAction Peer} {u : UdpState Peer} {o' : List UdpObs}
    (hother : fromOther peer a.2 = true)
    (hs : udpStep sha256 token (spec a.1) (peer a.1) (s.view a.1) a.2 = some (u, o')) {i : Fin n}
    (hne : i ≠ a.1) : (s.put a.1 u).view i = s.view i ∨ ∃ b,
      udpStep sha256 token (spec i) (peer i) (s.view i) b = some ((s.put a.1 u).view i, []) := by
  have hpeer : peer a.1 ≠ peer i := fun h => hne (peer.injective h).symm
  have hmove := udpStep_move sha256 hs
  rw [UdpFleet.view_put_of_ne s hne]
  obtain ⟨j, b⟩ := a
  cases hmove with
  | wait k => exact .inr ⟨.wait k, rfl⟩
  | serve k frame sendOk _ hserving =>
    refine .inr ⟨.serveOther (peer j) frame sendOk, ?_⟩
    rw [(onServe_client sha256 token (peer j) (peer j) frame sendOk (s.view j)).1]
    exact (if_pos ⟨hserving, hpeer⟩).trans (congrArg (fun u => some (u, []))
      (onServe_view sha256 token hpeer frame sendOk rfl rfl))
  | serveOther q frame sendOk hserving _ =>
    have hq : q ≠ peer i := fun h => of_decide_eq_true hother i h.symm
    refine .inr ⟨.serveOther q frame sendOk, ?_⟩
    rw [(onServe_client sha256 token (peer j) q frame sendOk (s.view j)).1]
    exact (if_pos ⟨hserving, hq⟩).trans (congrArg (fun u => some (u, []))
      (onServe_view sha256 token hq frame sendOk rfl rfl))
  | tick _ _ _ _ | helloFails _ | sendFails _ _ _ _ | ack _ _ _ _ _ | took _ _ _ _ _ _ _ _ _
  | ackFails _ _ _ | lost _ _ _ _ _ _ _ | arrive _ _ _ => exact .inl rfl

/-- A run of the clients with their server is a run of each client with a server that may serve
others, too. -/
theorem udpFleet_reach (hr : (udpFleet sha256 token spec peer).Reach t s) (i : Fin n) :
    (udpSystem sha256 token (spec i) (peer i)).Reach (Fleet.part i t) (s.view i) := by
  refine hr.project (N := udpSystem sha256 token (spec i) (peer i)) (fun s => s.view i)
    (fun o => if o.1 = i then some o.2 else none) rfl fun {t s a s' o} _ hs => ?_
  obtain ⟨hother, u, o', hstep, rfl, rfl⟩ := udpFleet_cases sha256 hs
  have hpart : (o'.map (Prod.mk a.1)).filterMap (fun o => if o.1 = i then some o.2 else none) =
      if a.1 = i then o' else [] := Fleet.part_map i a.1 o'
  rw [hpart]
  by_cases hi : i = a.1
  · subst hi
    rw [if_pos rfl, UdpFleet.view_put_self]
    exact .inr ⟨a.2, hstep⟩
  · rw [if_neg (Ne.symm hi)]
    exact (udpFleet_other sha256 hother hstep hi).imp (fun h => ⟨h, rfl⟩) id

end Fleet

end Ipfusch
