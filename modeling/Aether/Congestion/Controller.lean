import Mathlib.Data.Rat.Floor
import Aether.Error
import Aether.Library.Words
import Aether.Library.Window
import Aether.Library.Runs

/-! Congestion control (`congestion.rs`): the window a sender may fill.

What an acknowledgement says of the path goes into two estimators, the least RTT of
the last ten seconds and the greatest bandwidth, and the window is computed from
their product. The scaling of a window with a gain, which the source does in doubles,
is a parameter; `exactScale` is the one without rounding. The products are those of
the build (`Build`), so a call may be aborted halfway. -/
namespace Aether
open Octets Octets.Method

inductive CongestionState where
  | startup
  | probe
  | drain
  | steady
  deriving DecidableEq, Repr

structure CongestionController where
  cwnd : UInt64
  /-- In microseconds. -/
  minRtt : UInt64
  /-- In octets a second. -/
  maxBw : UInt64
  gain : ℚ
  state : CongestionState
  lastUpdate : Instant
  rttWindow : List (UInt64 × Instant)
  deriving DecidableEq

/-- `(cwnd as f64 * gain) as u64` -/
abbrev Scale := UInt64 → ℚ → UInt64

/-- Rounded down; what does not fit in a word becomes the greatest one. -/
def exactScale : Scale := fun cwnd gain => UInt64.ofNat (min ⌊(cwnd.toNat : ℚ) * gain⌋₊ (2 ^ 64 - 1))

namespace CongestionController

/-- `CongestionController::new` -/
def new (initialCwnd : UInt64) (now : Instant) : CongestionController :=
  { cwnd := initialCwnd
    minRtt := 18446744073709551615
    maxBw := 0
    gain := 289 / 100
    state := .startup
    lastUpdate := now
    rttWindow := [] }

/-- `now.duration_since(t).as_secs() < 10`; the duration is 0 for a later instant. -/
def recent (now t : Instant) : Bool := (now - t) / 1000000000 < 10

/-! ### Acknowledgements -/

/-- The first part of `on_ack`: `min_rtt` and the window of RTTs. -/
def estimateRtt (rtt : UInt64) (now : Instant) (c : CongestionController) : CongestionController :=
  let c := if rtt < c.minRtt then { c with minRtt := rtt } else c
  let c := { c with rttWindow := c.rttWindow.filter (fun (x : UInt64 × Instant) => recent now x.2) ++ [(rtt, now)] }
  match (c.rttWindow.map Prod.fst).min? with
  | some min => { c with minRtt := min }
  | none => c

/-- The second part: `delivery_rate`, in octets a second. -/
def deliveryRate (build : Build) (bytesAcked rtt : UInt64) (c : CongestionController) : Result UInt64 :=
  if rtt > 0 then do
    let micros ← build.mul bytesAcked 1000000
    divide micros rtt
  else .ok c.maxBw

/-- `max_bw` -/
def estimateBw (deliveryRate : UInt64) (c : CongestionController) : CongestionController :=
  if deliveryRate > c.maxBw then { c with maxBw := deliveryRate } else c

/-- `self.max_bw * self.min_rtt / 1_000_000`, the bandwidth-delay product. -/
def bdp (build : Build) (c : CongestionController) : Result UInt64 := do
  let product ← build.mul c.maxBw c.minRtt
  divide product 1000000

/-- The third part: `cwnd`, by the state. -/
def resize (build : Build) (scale : Scale) : Action CongestionController Unit := do
  let c ← get
  match c.state with
  | .startup => do
    let c := { c with cwnd := scale c.cwnd (11 / 10) }
    set c
    if c.maxBw > 0 then do
      let target ← liftM (c.bdp build)
      if c.cwnd ≥ target then set { c with state := .drain, gain := 3 / 4 }
  | .probe => do
    let c := { c with gain := 5 / 4 }
    set c
    let c := { c with cwnd := ← liftM (c.bdp build) }
    set { c with cwnd := scale c.cwnd c.gain }
  | .drain => do
    let c := { c with gain := 3 / 4 }
    set c
    let c := { c with cwnd := ← liftM (c.bdp build) }
    set { c with cwnd := scale c.cwnd c.gain, state := .probe }
  | .steady => do
    set { c with cwnd := ← liftM (c.bdp build) }

def onAck (build : Build) (scale : Scale) (bytesAcked rtt : UInt64) (now : Instant) :
    Action CongestionController Unit := do
  modify (estimateRtt rtt now)
  let c ← get
  let rate ← liftM (c.deliveryRate build bytesAcked rtt)
  modify (estimateBw rate)
  resize build scale
  modify fun c => { c with lastUpdate := now }

/-! ### Losses -/

def onLoss (build : Build) (currentRtt : UInt64) : Action CongestionController Unit := do
  let c ← get
  let high ← liftM (build.mul c.minRtt 3 : Result UInt64)
  let isNoise := decide (currentRtt > high)
  if !isNoise then set { c with cwnd := c.cwnd / 2, state := .steady, gain := 1 }

def sendWindow (c : CongestionController) : UInt64 := c.cwnd

/-! ### Calls -/

inductive Call where
  | onAck (bytesAcked rtt : UInt64) (now : Instant)
  | onLoss (currentRtt : UInt64)
  deriving DecidableEq

def Call.perform (build : Build) (scale : Scale) : Call → Action CongestionController Unit
  | .onAck bytesAcked rtt now => CongestionController.onAck build scale bytesAcked rtt now
  | .onLoss currentRtt => CongestionController.onLoss build currentRtt

/-- A call that is aborted is the last one. -/
def step (build : Build) (scale : Scale) (c : CongestionController) (call : Call) : Option CongestionController :=
  match (call.perform build scale).exec c with
  | (.ok _, c') => some c'
  | (.error _, _) => none

end CongestionController

end Aether
