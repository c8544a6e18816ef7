import Lily.Transition.Reactive

/-!
# How often a WebSocket client connects

The loop of the initial connect, and the supervisor that connects again after every connection,
have the same retry budget. The cancellation may come between any two steps, and the scheduler
decides what a `select!` over the cancellation and a timer looks at first.
-/

namespace Lily.WebsocketClient

open Transition (Reactive)

structure ReconnectionConfig where
  enabled : Bool
  maxRetries : USize
  /-- `ping_interval_secs` of the client, in the unit of its clock. -/
  pingInterval : Nat

/-- Where the client is. -/
inductive Phase where
  | idle
  /-- In the `select!` of `reconnect_after`. -/
  | waiting
  /-- In `establish_connection`. -/
  | connecting
  | connected
  | ended
  deriving DecidableEq

/-- The supervisor of a client, in its first loop or in the one that reconnects. -/
structure Client where
  cancelled : Bool := false
  phase : Phase := .idle
  /-- The loop is the one of `establish_initial_connection`. -/
  initial : Bool := true
  /-- The counter of the loop. -/
  attempt : Nat := 0

inductive Event where
  | cancel
  | connect
  /-- The `select!` is polled: has the timer elapsed, and is it looked at first. -/
  | polled (elapsed first : Bool)
  /-- The handshake ends in a connection, by a cancellation or in another error. -/
  | connected
  | aborted
  | failed
  /-- The connection is over. -/
  | lived (duration : Nat)
  /-- The callback `on_connect` cannot be queued. -/
  | overloaded
  deriving DecidableEq

inductive Action where
  /-- A call of `reconnect_after`. -/
  | retry
  /-- A call of `establish_connection`, before or after the cancellation. -/
  | connecting (late : Bool)
  deriving DecidableEq

namespace Client

variable (config : ReconnectionConfig) (c : Client)

@[grind] def stop : Client × List Action := ({ c with phase := .ended }, [])

/-- Both loops after a failure. -/
@[grind] def retry : Client × List Action :=
  if config.enabled = false ∨ config.maxRetries.toNat ≤ c.attempt then c.stop
  else ({ c with phase := .waiting, attempt := c.attempt + 1 }, [.retry])

@[grind] def establishConnection : Client × List Action :=
  ({ c with phase := .connecting }, [.connecting c.cancelled])

/-- The timer may win against a cancellation that is ready too. -/
@[grind] def poll (elapsed first : Bool) : Client × List Action :=
  if elapsed ∧ (first ∨ ¬ c.cancelled) then c.establishConnection
  else if c.cancelled then c.stop else (c, [])

/-- The initial connect succeeds, and the supervisor starts with a counter of its own; or a
reconnect does. -/
@[grind] def opened : Client × List Action :=
  if c.initial then
    ({ c with phase := .connected, initial := false, attempt := 0 }, [])
  else ({ c with phase := .connected }, [])

@[grind] def leave : Client × List Action := if c.cancelled then c.stop else c.retry config

/-- Only a connection that has lived for the ping interval renews the budget. -/
@[grind] def disconnect (duration : Nat) : Client × List Action :=
  if config.pingInterval ≤ duration then { c with attempt := 0 }.leave config
  else c.leave config

def act : Event → Client → Client × List Action
  | .cancel, c => ({ c with cancelled := true }, [])
  | .connect, c =>
    if c.phase ≠ .idle then (c, []) else if c.cancelled then c.stop else c.establishConnection
  | .polled elapsed first, c => if c.phase = .waiting then c.poll elapsed first else (c, [])
  | .connected, c => if c.phase = .connecting then c.opened else (c, [])
  | .aborted, c => if c.phase = .connecting then c.stop else (c, [])
  | .failed, c => if c.phase = .connecting then c.retry config else (c, [])
  | .lived duration, c => if c.phase = .connected then c.disconnect config duration else (c, [])
  | .overloaded, c => if c.phase = .connected then c.stop else (c, [])

def machine : Reactive Client Event Action := ⟨act config⟩

end Client

section Log

variable (log : List Action)

@[grind] def retries : Nat := log.count .retry

@[grind] def late : Nat := log.count (.connecting true)

@[grind] def handshakes : Nat := log.count (.connecting false) + late log

end Log

namespace Client

/-- What the counter says about the log, in every phase. -/
structure Accounts (config : ReconnectionConfig) (c : Client) (log : List Action) : Prop where
  within : c.attempt ≤ config.maxRetries.toNat
  idle : c.phase = .idle → handshakes log = 0
  initial : c.initial → c.phase ≠ .connected ∧
    handshakes log ≤ c.attempt + if c.phase = .waiting then 0 else 1
  fresh : c.cancelled = false → late log = 0
  waiting : c.phase = .waiting → late log < c.attempt
  connecting : c.phase = .connecting → late log ≤ c.attempt
  late : late log ≤ config.maxRetries.toNat

variable {config : ReconnectionConfig} {c : Client} {log : List Action}

theorem Accounts.leave (h : Accounts config c log) (connected : c.phase = .connected) :
    Accounts config (c.leave config).1 (log ++ (c.leave config).2) := by
  obtain ⟨within, idle, initial, fresh, waiting, connecting, few⟩ := h
  constructor <;> grind -ring -linarith

/-- Every event keeps the attempts within the policy. -/
theorem Accounts.act (h : Accounts config c log) (event : Event) :
    Accounts config (act config event c).1 (log ++ (act config event c).2) := by
  obtain ⟨within, idle, initial, fresh, waiting, connecting, few⟩ := id h
  cases event with
  | lived duration =>
    simp only [Client.act, disconnect]
    split_ifs with connected
    · have reset : Accounts config { c with attempt := 0 } log := by
        constructor <;> grind -ring -linarith
      exact reset.leave connected
    · exact h.leave connected
    · simpa using h
  | _ => constructor <;> grind -ring -linarith [Client.act]

end Client

end Lily.WebsocketClient
