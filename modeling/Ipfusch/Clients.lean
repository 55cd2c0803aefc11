import Ipfusch.Machine
import Ipfusch.Server
import Ipfusch.Stream
import Ipfusch.Turnstile

/-!
# The clients of a server

`run_server` runs the accept loops of its transports. The TCP loop takes a permit of a semaphore
for each connection before it spawns the connection's task, and the permit goes back when the task
ends, however it ends. The QUIC loop spawns a task for each connection and takes no permit.

So the TCP connections that are handled are those inside a turnstile of capacity `max_clients`, in
every run (`tcp_turnstile`), and the QUIC connections as many as are accepted (`exists_quic`).

`clientsBounded_iff` : at most `max_clients` connections of each transport are handled at every
moment of every run exactly if the server has no QUIC loop. `not_clientsBounded_quic` : with
`max_clients` one, two QUIC connections can be handled.
-/

namespace Ipfusch

open ByteConn

/-! ## The state -/

/-- `ServerTransport` -/
inductive ServerTransport
  | tcp
  | udp
  | quic
  | all
  deriving DecidableEq, Repr

/-- `ServerConfig` -/
structure ServerConfig where
  transport : ServerTransport
  token : Option String
  maxClients : UInt64

/-- The most permits a `Semaphore` can have : `usize::MAX >> 3`. -/
def maxPermits : ℕ := 2 ^ 61 - 1

/-- Where `run_tcp_server` is. -/
inductive TcpLoop
  /-- It does not run. -/
  | off
  /-- `TcpListener::bind(bind)` -/
  | bind
  /-- `listener.accept()` -/
  | accept
  /-- `acquire_owned()`, with a connection that was accepted. -/
  | acquire
  deriving DecidableEq, Repr

/-- Where `run_quic_server` is. -/
inductive QuicLoop
  /-- It does not run. -/
  | off
  /-- `Endpoint::server(server_config, bind)` -/
  | bind
  /-- `endpoint.accept()` -/
  | accept
  deriving DecidableEq, Repr

/-- Where the task of a QUIC connection is. -/
inductive QuicTask
  /-- `connecting.await` -/
  | connecting
  /-- `connection.accept_bi()` -/
  | acceptBi
  /-- `handle_quic_stream` on a stream, with what has arrived on it. -/
  | stream (conn : Conn)

/-- `run_server` and the tasks it has spawned. -/
structure ServerState where
  tcpLoop : TcpLoop
  udpRuns : Bool
  quicLoop : QuicLoop
  /-- The free permits of the semaphore, also before `run_tcp_server` makes it. -/
  permits : ℕ
  /-- The TCP connections being handled, with what has arrived on each. -/
  tcp : List Conn
  /-- The QUIC connections being handled. -/
  quic : List QuicTask

/-- `run_server` at its start. -/
def ServerState.start (cfg : ServerConfig) : ServerState where
  tcpLoop := if cfg.transport = .tcp ∨ cfg.transport = .all then .bind else .off
  udpRuns := decide (cfg.transport = .udp ∨ cfg.transport = .all)
  quicLoop := if cfg.transport = .quic ∨ cfg.transport = .all then .bind else .off
  permits := cfg.maxClients.toNat
  tcp := []
  quic := []

/-- `run_server` ends. The tasks that were spawned go on. -/
def ServerState.endLoops (s : ServerState) : ServerState :=
  { s with tcpLoop := .off, udpRuns := false, quicLoop := .off }

/-- A loop can fail where it is : a bind, an accept, a receive or a send of it. -/
def ServerState.canFail (s : ServerState) : Transport → Bool
  | .tcp => s.tcpLoop = .bind ∨ s.tcpLoop = .accept
  | .udp => s.udpRuns
  | .quic => s.quicLoop = .bind

/-! ## The steps -/

/-- How a task can end before its time. -/
inductive Abort
  | panicked
  | cancelled
  deriving DecidableEq, Repr

/-- How a task ends. -/
inductive TaskEnd
  /-- The handler of a TCP connection succeeded. -/
  | done
  /-- The handler of a TCP connection or of a QUIC stream failed. -/
  | failed (e : Failure NetError)
  /-- The handshake of a QUIC connection failed. -/
  | refused
  /-- A QUIC connection was closed or lost. -/
  | closed
  | aborted (cause : Abort)

/-- What happens to tasks. -/
inductive ServerObs
  | tcpSpawned
  | tcpEnded (cause : TaskEnd)
  | quicSpawned
  | quicEnded (cause : TaskEnd)

/-- What can come next at the TCP loop and its tasks. -/
inductive TcpServerAction
  /-- The listener is bound. -/
  | binds
  /-- A connection is accepted. -/
  | accepts
  /-- A permit is acquired for it. -/
  | acquires
  /-- Bytes arrive on a connection, or its end does. -/
  | receives (i : ℕ) (bytes : List UInt8) (tail : StreamEnd)
  /-- The handler of a connection returns. -/
  | returns (i : ℕ)
  /-- `set_nodelay` or a write of the handler fails. -/
  | ioFails (i : ℕ) (e : Failure NetError)
  | aborts (i : ℕ) (cause : Abort)

/-- What can come next at the QUIC loop and its tasks. -/
inductive QuicServerAction
  /-- The endpoint is bound. -/
  | binds
  /-- A connection is accepted. -/
  | accepts
  /-- The endpoint is closed. -/
  | closes
  /-- The handshake of a connection succeeds. -/
  | connects (i : ℕ)
  /-- The handshake of a connection fails. -/
  | refuses (i : ℕ)
  /-- The client opens a stream. -/
  | opens (i : ℕ)
  /-- The connection is closed or lost. -/
  | loses (i : ℕ)
  /-- Bytes arrive on a stream, or its end does. -/
  | receives (i : ℕ) (bytes : List UInt8) (tail : StreamEnd)
  /-- The handler of a stream returns. -/
  | returns (i : ℕ)
  /-- A write of the handler fails. -/
  | ioFails (i : ℕ) (e : Failure NetError)
  | aborts (i : ℕ) (cause : Abort)

/-- What can come next. -/
inductive ServerAction
  | tcp (a : TcpServerAction)
  | quic (a : QuicServerAction)
  /-- The loop of a transport fails, and `run_server` with it. -/
  | fails (transport : Transport)
  /-- `run_server` is cancelled. -/
  | cancels

/-- A connection on which nothing has arrived. -/
def newConn : Conn where
  input := []
  tail := .silent

/-- Bytes arrive on a connection that has not ended. -/
def receive (conn : Conn) (bytes : List UInt8) (tail : StreamEnd) : Option Conn :=
  if conn.tail = .silent then some { conn with input := conn.input ++ bytes, tail := tail }
  else none

/-- The connection `i` is handled no more, and its permit is dropped. -/
def ServerState.endTcp (s : ServerState) (i : ℕ) (cause : TaskEnd) :
    ServerState × List ServerObs :=
  ({ s with tcp := s.tcp.eraseIdx i, permits := s.permits + 1 }, [.tcpEnded cause])

/-- The QUIC connection `i` is handled no more. -/
def ServerState.endQuic (s : ServerState) (i : ℕ) (cause : TaskEnd) :
    ServerState × List ServerObs :=
  ({ s with quic := s.quic.eraseIdx i }, [.quicEnded cause])

section Server

variable (sha256 : List UInt8 → Digest) (cfg : ServerConfig)

/-- A step of `run_tcp_server` or of a task it has spawned. -/
def tcpServerStep (s : ServerState) : TcpServerAction → Option (ServerState × List ServerObs)
  | .binds =>
    match s.tcpLoop with
    | .bind =>
      if cfg.maxClients.toNat ≤ maxPermits then some ({ s with tcpLoop := .accept }, [])
      -- `Semaphore::new` panics.
      else some (s.endLoops, [])
    | _ => none
  | .accepts =>
    match s.tcpLoop with
    | .accept => some ({ s with tcpLoop := .acquire }, [])
    | _ => none
  | .acquires =>
    match s.tcpLoop, s.permits with
    | .acquire, permits + 1 =>
      some ({ s with tcpLoop := .accept, permits := permits, tcp := s.tcp ++ [newConn] },
        [.tcpSpawned])
    | _, _ => none
  | .receives i bytes tail =>
    match s.tcp[i]? with
    | some conn =>
      (receive conn bytes tail).map fun conn => ({ s with tcp := s.tcp.set i conn }, [])
    | none => none
  | .returns i =>
    match s.tcp[i]? with
    | some conn =>
      match ((handleTcpConnection sha256 cfg.token).run conn).1 with
      | .ok _ => some (s.endTcp i .done)
      | .error (.failed e) => some (s.endTcp i (.failed e))
      | .error .blocked => none
    | none => none
  | .ioFails i e => if i < s.tcp.length then some (s.endTcp i (.failed e)) else none
  | .aborts i cause => if i < s.tcp.length then some (s.endTcp i (.aborted cause)) else none

/-- A step of `run_quic_server` or of a task it has spawned. -/
def quicServerStep (s : ServerState) : QuicServerAction → Option (ServerState × List ServerObs)
  | .binds =>
    match s.quicLoop with
    | .bind => some ({ s with quicLoop := .accept }, [])
    | _ => none
  | .accepts =>
    match s.quicLoop with
    | .accept => some ({ s with quic := s.quic ++ [.connecting] }, [.quicSpawned])
    | _ => none
  | .closes =>
    match s.quicLoop with
    | .accept => some ({ s with quicLoop := .off }, [])
    | _ => none
  | .connects i =>
    match s.quic[i]? with
    | some .connecting => some ({ s with quic := s.quic.set i .acceptBi }, [])
    | _ => none
  | .refuses i =>
    match s.quic[i]? with
    | some .connecting => some (s.endQuic i .refused)
    | _ => none
  | .opens i =>
    match s.quic[i]? with
    | some .acceptBi => some ({ s with quic := s.quic.set i (.stream newConn) }, [])
    | _ => none
  | .loses i =>
    match s.quic[i]? with
    | some .acceptBi => some (s.endQuic i .closed)
    | _ => none
  | .receives i bytes tail =>
    match s.quic[i]? with
    | some (.stream conn) =>
      (receive conn bytes tail).map fun conn => ({ s with quic := s.quic.set i (.stream conn) }, [])
    | _ => none
  | .returns i =>
    match s.quic[i]? with
    | some (.stream conn) =>
      match ((handleQuicStream sha256 cfg.token).run conn).1 with
      | .ok _ => some ({ s with quic := s.quic.set i .acceptBi }, [])
      | .error (.failed e) => some (s.endQuic i (.failed e))
      | .error .blocked => none
    | _ => none
  | .ioFails i e =>
    match s.quic[i]? with
    | some (.stream _) => some (s.endQuic i (.failed e))
    | _ => none
  | .aborts i cause => if i < s.quic.length then some (s.endQuic i (.aborted cause)) else none

/-- A step of the server. -/
def serverStep (s : ServerState) : ServerAction → Option (ServerState × List ServerObs)
  | .tcp a => tcpServerStep sha256 cfg s a
  | .quic a => quicServerStep sha256 cfg s a
  | .fails transport => if s.canFail transport then some (s.endLoops, []) else none
  | .cancels => some (s.endLoops, [])

/-- `run_server` and its clients. -/
def server : Machine ServerState ServerAction ServerObs where
  init := .start cfg
  step := serverStep sha256 cfg

/-! ## What a step can do -/

/-- What a step does with the permits and the connections being handled. -/
inductive ServerEffect (s s' : ServerState) : ServerAction → List ServerObs → Prop
  | quiet {a : ServerAction} (hpermits : s'.permits = s.permits)
      (htcp : s'.tcp.length = s.tcp.length) (hquic : s'.quic.length = s.quic.length) :
      ServerEffect s s' a []
  | tcpEnters {a : ServerAction} (hpermits : s.permits = s'.permits + 1)
      (htcp : s'.tcp.length = s.tcp.length + 1) (hquic : s'.quic.length = s.quic.length) :
      ServerEffect s s' a [.tcpSpawned]
  | tcpLeaves {a : ServerAction} (cause : TaskEnd) (hpermits : s'.permits = s.permits + 1)
      (htcp : s.tcp.length = s'.tcp.length + 1) (hquic : s'.quic.length = s.quic.length) :
      ServerEffect s s' a [.tcpEnded cause]
  | quicEnters (hpermits : s'.permits = s.permits) (htcp : s'.tcp.length = s.tcp.length)
      (hquic : s'.quic.length = s.quic.length + 1) :
      ServerEffect s s' (.quic .accepts) [.quicSpawned]
  | quicLeaves {a : ServerAction} (cause : TaskEnd) (hpermits : s'.permits = s.permits)
      (htcp : s'.tcp.length = s.tcp.length) (hquic : s.quic.length = s'.quic.length + 1) :
      ServerEffect s s' a [.quicEnded cause]

omit sha256 cfg in
theorem endTcp_effect {s : ServerState} {a : ServerAction} {i : ℕ} (hi : i < s.tcp.length)
    (cause : TaskEnd) :
    ServerEffect s (s.endTcp i cause).1 a (s.endTcp i cause).2 := by
  have hlength := List.length_eraseIdx_add_one hi
  exact .tcpLeaves cause rfl hlength.symm rfl

omit sha256 cfg in
theorem endQuic_effect {s : ServerState} {a : ServerAction} {i : ℕ} (hi : i < s.quic.length)
    (cause : TaskEnd) :
    ServerEffect s (s.endQuic i cause).1 a (s.endQuic i cause).2 := by
  have hlength := List.length_eraseIdx_add_one hi
  exact .quicLeaves cause rfl rfl hlength.symm

variable {sha256} {cfg}

theorem tcpServerStep_effect {s s' : ServerState} {a : TcpServerAction} {o : List ServerObs}
    (hs : tcpServerStep sha256 cfg s a = some (s', o)) : ServerEffect s s' (.tcp a) o := by
  cases a with
  | binds =>
    simp only [tcpServerStep] at hs
    split at hs
    · split_ifs at hs
      all_goals
        obtain ⟨rfl, rfl⟩ := Prod.mk.inj (Option.some.inj hs)
        exact .quiet rfl rfl rfl
    · cases hs
  | accepts =>
    simp only [tcpServerStep] at hs
    split at hs
    · obtain ⟨rfl, rfl⟩ := Prod.mk.inj (Option.some.inj hs)
      exact .quiet rfl rfl rfl
    · cases hs
  | acquires =>
    simp only [tcpServerStep] at hs
    split at hs
    · next permits _ hpermits =>
      obtain ⟨rfl, rfl⟩ := Prod.mk.inj (Option.some.inj hs)
      exact .tcpEnters hpermits List.length_append rfl
    · cases hs
  | receives i bytes tail =>
    simp only [tcpServerStep] at hs
    split at hs
    · obtain ⟨conn, -, hs⟩ := Option.map_eq_some_iff.mp hs
      obtain ⟨rfl, rfl⟩ := Prod.mk.inj hs
      exact .quiet rfl List.length_set rfl
    · cases hs
  | returns i =>
    simp only [tcpServerStep] at hs
    split at hs
    · next conn hconn =>
      obtain ⟨hi, -⟩ := List.getElem?_eq_some_iff.mp hconn
      split at hs
      · obtain ⟨rfl, rfl⟩ := Prod.mk.inj (Option.some.inj hs)
        exact endTcp_effect hi .done
      · next e _ =>
        obtain ⟨rfl, rfl⟩ := Prod.mk.inj (Option.some.inj hs)
        exact endTcp_effect hi (.failed e)
      · cases hs
    · cases hs
  | ioFails i e =>
    obtain ⟨hi, hs⟩ := Option.ite_none_right_eq_some.mp hs
    obtain ⟨rfl, rfl⟩ := Prod.mk.inj (Option.some.inj hs)
    exact endTcp_effect hi (.failed e)
  | aborts i cause =>
    obtain ⟨hi, hs⟩ := Option.ite_none_right_eq_some.mp hs
    obtain ⟨rfl, rfl⟩ := Prod.mk.inj (Option.some.inj hs)
    exact endTcp_effect hi (.aborted cause)

theorem quicServerStep_effect {s s' : ServerState} {a : QuicServerAction} {o : List ServerObs}
    (hs : quicServerStep sha256 cfg s a = some (s', o)) : ServerEffect s s' (.quic a) o := by
  cases a with
  | binds | closes =>
    simp only [quicServerStep] at hs
    split at hs
    · obtain ⟨rfl, rfl⟩ := Prod.mk.inj (Option.some.inj hs)
      exact .quiet rfl rfl rfl
    · cases hs
  | accepts =>
    simp only [quicServerStep] at hs
    split at hs
    · obtain ⟨rfl, rfl⟩ := Prod.mk.inj (Option.some.inj hs)
      exact .quicEnters rfl rfl List.length_append
    · cases hs
  | connects i | opens i =>
    simp only [quicServerStep] at hs
    split at hs
    · obtain ⟨rfl, rfl⟩ := Prod.mk.inj (Option.some.inj hs)
      exact .quiet rfl rfl List.length_set
    · cases hs
  | refuses i | loses i =>
    simp only [quicServerStep] at hs
    split at hs
    · next htask =>
      obtain ⟨hi, -⟩ := List.getElem?_eq_some_iff.mp htask
      obtain ⟨rfl, rfl⟩ := Prod.mk.inj (Option.some.inj hs)
      exact endQuic_effect hi _
    · cases hs
  | receives i bytes tail =>
    simp only [quicServerStep] at hs
    split at hs
    · obtain ⟨conn, -, hs⟩ := Option.map_eq_some_iff.mp hs
      obtain ⟨rfl, rfl⟩ := Prod.mk.inj hs
      exact .quiet rfl rfl List.length_set
    · cases hs
  | returns i =>
    simp only [quicServerStep] at hs
    split at hs
    · next conn hconn =>
      obtain ⟨hi, -⟩ := List.getElem?_eq_some_iff.mp hconn
      split at hs
      · obtain ⟨rfl, rfl⟩ := Prod.mk.inj (Option.some.inj hs)
        exact .quiet rfl rfl List.length_set
      · next e _ =>
        obtain ⟨rfl, rfl⟩ := Prod.mk.inj (Option.some.inj hs)
        exact endQuic_effect hi (.failed e)
      · cases hs
    · cases hs
  | ioFails i e =>
    simp only [quicServerStep] at hs
    split at hs
    · next htask =>
      obtain ⟨hi, -⟩ := List.getElem?_eq_some_iff.mp htask
      obtain ⟨rfl, rfl⟩ := Prod.mk.inj (Option.some.inj hs)
      exact endQuic_effect hi (.failed e)
    · cases hs
  | aborts i cause =>
    obtain ⟨hi, hs⟩ := Option.ite_none_right_eq_some.mp hs
    obtain ⟨rfl, rfl⟩ := Prod.mk.inj (Option.some.inj hs)
    exact endQuic_effect hi (.aborted cause)

theorem serverStep_effect {s s' : ServerState} {a : ServerAction} {o : List ServerObs}
    (hs : serverStep sha256 cfg s a = some (s', o)) : ServerEffect s s' a o := by
  cases a with
  | tcp a => exact tcpServerStep_effect hs
  | quic a => exact quicServerStep_effect hs
  | fails transport =>
    obtain ⟨-, hs⟩ := Option.ite_none_right_eq_some.mp hs
    obtain ⟨rfl, rfl⟩ := Prod.mk.inj (Option.some.inj hs)
    exact .quiet rfl rfl rfl
  | cancels =>
    obtain ⟨rfl, rfl⟩ := Prod.mk.inj (Option.some.inj hs)
    exact .quiet rfl rfl rfl

theorem tcpServerStep_quicLoop {s s' : ServerState} {a : TcpServerAction} {o : List ServerObs}
    (hs : tcpServerStep sha256 cfg s a = some (s', o)) (hloop : s.quicLoop = .off) :
    s'.quicLoop = .off := by
  cases a <;> simp only [tcpServerStep] at hs <;>
    grind [ServerState.endLoops, ServerState.endTcp, Option.map_eq_some_iff]

theorem quicServerStep_quicLoop {s s' : ServerState} {a : QuicServerAction} {o : List ServerObs}
    (hs : quicServerStep sha256 cfg s a = some (s', o)) (hloop : s.quicLoop = .off) :
    s'.quicLoop = .off := by
  cases a <;> simp only [quicServerStep, hloop] at hs <;>
    grind [ServerState.endQuic, Option.map_eq_some_iff]

/-- A QUIC loop that does not run does not start. -/
theorem serverStep_quicLoop {s s' : ServerState} {a : ServerAction} {o : List ServerObs}
    (hs : serverStep sha256 cfg s a = some (s', o)) (hloop : s.quicLoop = .off) :
    s'.quicLoop = .off := by
  cases a with
  | tcp a => exact tcpServerStep_quicLoop hs hloop
  | quic a => exact quicServerStep_quicLoop hs hloop
  | fails transport =>
    obtain ⟨-, hs⟩ := Option.ite_none_right_eq_some.mp hs
    obtain ⟨rfl, rfl⟩ := Prod.mk.inj (Option.some.inj hs)
    rfl
  | cancels =>
    obtain ⟨rfl, rfl⟩ := Prod.mk.inj (Option.some.inj hs)
    rfl

/-! ## The slots -/

/-- A TCP connection comes to be handled, or is handled no more. -/
def tcpMove : ServerObs → Option Turnstile.Move
  | .tcpSpawned => some .enter
  | .tcpEnded _ => some .leave
  | _ => none

variable {t : List ServerObs} {s : ServerState}

/-- In every run, the free permits and the TCP connections being handled are `max_clients`. -/
theorem permits_add_tcp (h : (server sha256 cfg).Reach t s) :
    s.permits + s.tcp.length = cfg.maxClients.toNat := by
  refine h.invariant (I := fun _ s => s.permits + s.tcp.length = cfg.maxClients.toNat) rfl
    fun _ hsum hs => ?_
  cases serverStep_effect hs with
  | quiet hpermits htcp | tcpEnters hpermits htcp | tcpLeaves _ hpermits htcp
  | quicEnters hpermits htcp | quicLeaves _ hpermits htcp => omega

/-- In every run, the TCP connections go through a turnstile of capacity `max_clients`. -/
theorem tcp_turnstile (h : (server sha256 cfg).Reach t s) :
    (Turnstile.turnstile cfg.maxClients.toNat).Reach (t.filterMap tcpMove) s.tcp.length := by
  refine h.project (N := Turnstile.turnstile cfg.maxClients.toNat) (fun s => s.tcp.length)
    tcpMove rfl fun hr hs => ?_
  have hsum := permits_add_tcp hr
  cases serverStep_effect hs with
  | quiet _ htcp | quicEnters _ htcp | quicLeaves _ _ htcp => exact Or.inl ⟨htcp, rfl⟩
  | tcpEnters hpermits htcp =>
    rw [htcp]
    exact Or.inr ⟨_, Turnstile.enter (by omega)⟩
  | tcpLeaves _ _ htcp =>
    rw [htcp]
    exact Or.inr ⟨_, Turnstile.leave⟩

/-- Each TCP connection takes a permit when it comes to be handled, and gives it back when it ends,
however it ends. -/
theorem permits_count (h : (server sha256 cfg).Reach t s) :
    s.permits + (t.filterMap tcpMove).count .enter =
      cfg.maxClients.toNat + (t.filterMap tcpMove).count .leave := by
  have hsum := permits_add_tcp h
  have hcount := Turnstile.reach_count (tcp_turnstile h)
  omega

/-- A connection that was accepted gets a permit exactly if fewer than `max_clients` are handled. -/
theorem acquires_iff (h : (server sha256 cfg).Reach t s) (hloop : s.tcpLoop = .acquire) :
    (serverStep sha256 cfg s (.tcp .acquires)).isSome = true ↔
      s.tcp.length < cfg.maxClients.toNat := by
  have hsum := permits_add_tcp h
  simp only [serverStep, tcpServerStep, hloop]
  cases hpermits : s.permits with
  | zero => simp; omega
  | succ permits => simp; omega

variable (cfg) in
/-- At most `max_clients` connections of each transport are handled, and all permits that they do
not hold are free. -/
structure ClientsBounded (s : ServerState) : Prop where
  tcp : s.tcp.length ≤ cfg.maxClients.toNat
  quic : s.quic.length ≤ cfg.maxClients.toNat
  slots : s.permits + s.tcp.length = cfg.maxClients.toNat

/-- Without the QUIC loop, no QUIC connection is handled. -/
theorem quic_length_eq_zero (htransport : cfg.transport = .tcp ∨ cfg.transport = .udp)
    (h : (server sha256 cfg).Reach t s) : s.quicLoop = .off ∧ s.quic.length = 0 := by
  refine h.invariant (I := fun _ s => s.quicLoop = .off ∧ s.quic.length = 0) ⟨?_, rfl⟩
    fun {t s a s' o} _ hoff hs => ⟨serverStep_quicLoop hs hoff.1, ?_⟩
  · rcases htransport with htransport | htransport <;>
      simp [server, ServerState.start, htransport]
  · cases serverStep_effect hs with
    | quiet _ _ hquic | tcpEnters _ _ hquic | tcpLeaves _ _ _ hquic => exact hquic.trans hoff.2
    | quicEnters => simp [server, serverStep, quicServerStep, hoff.1] at hs
    | quicLeaves _ _ _ hquic => omega

/-- Without the QUIC loop, the clients are bounded in every run. -/
theorem clientsBounded_of_not_quic (htransport : cfg.transport = .tcp ∨ cfg.transport = .udp)
    (h : (server sha256 cfg).Reach t s) : ClientsBounded cfg s where
  tcp := Turnstile.reach_le (tcp_turnstile h)
  quic := (quic_length_eq_zero htransport h).2 ▸ Nat.zero_le _
  slots := permits_add_tcp h

variable (sha256) in
/-- The QUIC loop accepts each connection, however many are handled already. -/
theorem exists_quic (htransport : cfg.transport = .quic ∨ cfg.transport = .all) (n : ℕ) :
    ∃ t s, (server sha256 cfg).Reach t s ∧ s.quicLoop = .accept ∧
      s.quic = List.replicate n .acceptBi := by
  induction n with
  | zero =>
    have hbinds : (server sha256 cfg).step (.start cfg) (.quic .binds) =
        some ({ ServerState.start cfg with quicLoop := .accept }, []) := by
      simp [server, serverStep, quicServerStep, ServerState.start, htransport]
    exact ⟨_, _, Machine.Reach.start.step hbinds, rfl, rfl⟩
  | succ n ih =>
    obtain ⟨t, s, hreach, hloop, hquic⟩ := ih
    have haccepts : (server sha256 cfg).step s (.quic .accepts) =
        some ({ s with quic := s.quic ++ [.connecting] }, [.quicSpawned]) := by
      simp [server, serverStep, quicServerStep, hloop]
    have hconnects : (server sha256 cfg).step { s with quic := s.quic ++ [.connecting] }
        (.quic (.connects n)) =
          some ({ s with quic := List.replicate (n + 1) .acceptBi }, []) := by
      simp [server, serverStep, quicServerStep, hquic, List.replicate_succ']
    exact ⟨_, _, (hreach.step haccepts).step hconnects, hloop, rfl⟩

variable (sha256 cfg)

/-- The clients are bounded in every run exactly if no QUIC loop is started. -/
theorem clientsBounded_iff :
    (∀ {t s}, (server sha256 cfg).Reach t s → ClientsBounded cfg s) ↔
      cfg.transport = .tcp ∨ cfg.transport = .udp := by
  constructor
  · intro hbounded
    by_contra htransport
    have hquic : cfg.transport = .quic ∨ cfg.transport = .all := by
      cases h : cfg.transport <;> simp [h] at htransport ⊢
    obtain ⟨t, s, hreach, -, hhandled⟩ := exists_quic sha256 hquic
      (cfg.maxClients.toNat + 1)
    have hle := (hbounded hreach).quic
    rw [hhandled, List.length_replicate] at hle
    exact Nat.not_succ_le_self _ hle
  · exact fun htransport _ _ h => clientsBounded_of_not_quic htransport h

end Server

/-- Two clients connect. -/
def twoClients : List ServerAction :=
  [.quic .binds, .quic .accepts, .quic (.connects 0), .quic .accepts, .quic (.connects 1)]

/-- With `max_clients` one, two QUIC connections are handled. -/
theorem not_clientsBounded_quic : ¬∀ (sha256 : List UInt8 → Digest) (cfg : ServerConfig) t s,
    (server sha256 cfg).Reach t s → ClientsBounded cfg s := by
  intro h
  let cfg : ServerConfig := ⟨.quic, none, 1⟩
  have hexec : (server (fun _ => List.Vector.replicate 32 0) cfg).exec (.start cfg) twoClients =
      some (⟨.off, false, .accept, 1, [], [.acceptBi, .acceptBi]⟩,
        [.quicSpawned, .quicSpawned]) := rfl
  have hquic := (h _ cfg _ _ (Machine.reach_exec hexec)).quic
  exact absurd hquic (by decide)

end Ipfusch
