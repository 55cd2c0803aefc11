import Mathlib.Algebra.Group.Nat.Defs

/-!
# Streams

What a stream of a run is to do (`StreamRunSpec`), what it reports for each packet
(`PacketEvent`), and the delay that paces it. Durations and clock readings are in
nanoseconds.
-/

namespace Ipfusch

/-- `Transport` -/
inductive Transport
  | tcp
  | udp
  | quic
  deriving DecidableEq, Repr

/-- `Transport::fmt` -/
def Transport.toString : Transport → String
  | .tcp => "tcp"
  | .udp => "udp"
  | .quic => "quic"

/-- `StreamRunSpec` -/
structure StreamRunSpec where
  sessionId : UInt64
  streamId : UInt32
  transport : Transport
  duration : ℕ
  warmup : ℕ
  payloadBytes : UInt64
  rateBps : Option UInt64
  token : Option String
  timeout : ℕ

/-- `PacketEvent` -/
structure PacketEvent where
  streamId : UInt32
  seq : ℕ
  bytes : ℕ
  sendMonoNs : ℕ
  recvMonoNs : Option ℕ
  measured : Bool
  deriving DecidableEq, Repr

/-- `pacing_delay` : the time the bits of a packet take at the rate, at least a nanosecond.
The cast to `u64` saturates. -/
def pacingDelay (payloadBytes : UInt64) (rateBps : Option UInt64) : Option ℕ :=
  rateBps.bind fun bps =>
    if bps = 0 then none
    else
      let nanos := max (payloadBytes.toNat * 8 * 1000000000 / bps.toNat) 1
      some (min nanos (2 ^ 64 - 1))

end Ipfusch
