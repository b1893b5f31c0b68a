import LiveQuery.Http.Wire
import LiveQuery.Schedule
import Std.Async.DNS
import Std.Async.TCP
import Std.Async.Timer

/-!
# Requests over a real network

The thin layer that carries the octets of an exchange over TCP. What is sent and what it means is
decided in `Http.Exchange` and `Http.Wire`.
-/

namespace LiveQuery.Http.Network

open Std.Async

/-- The most octets that are taken at a time. -/
def chunkSize : UInt64 := 65536

/-- An address of 32 bits. -/
def v4 (a : Nat) : Std.Net.IPv4Addr :=
  .ofParts (a >>> 24).toUInt8 (a >>> 16).toUInt8 (a >>> 8).toUInt8 a.toUInt8

/-- An address of 128 bits. -/
def v6 (groups : List Nat) : Std.Net.IPv6Addr :=
  ⟨.ofFn fun i => (groups.getD i 0).toUInt16⟩

/-- The addresses of a host. -/
def addresses : Host → Async (List Std.Net.IPAddr)
  | .v4 a => return [.v4 (v4 a)]
  | .v6 groups => return [.v6 (v6 groups)]
  | .name labels => return (← DNS.getAddrInfo labels "").toList

/-- Connects to the first of several addresses that can be reached. -/
def connect (port : UInt16) : List Std.Net.IPAddr → Async TCP.Socket.Client
  | [] => throw (IO.userError "no address")
  | address :: rest => do
    let client ← TCP.Socket.Client.mk
    try
      client.connect (match address with
        | .v4 a => .v4 ⟨a, port⟩
        | .v6 a => .v6 ⟨a, port⟩)
      return client
    catch _ => connect port rest

/-- Takes octets until the other side hangs up. -/
partial def receive (client : TCP.Socket.Client) (taken : ByteArray) : Async ByteArray := do
  match ← client.recv? chunkSize with
  | none => return taken
  | some more => receive client (taken ++ more)

/-- Sends a hop to its server. -/
def ask (h : Hop) : Async Answer := do
  match h.url.scheme, h.url.host with
  | "http", some host =>
    try
      let client ← connect h.url.portOrUsual.toUInt16 (← addresses host)
      client.send ⟨(Wire.request h).toArray⟩
      return Wire.answer (← receive client .empty).toList
    catch _ => return .nothing
  | _, _ => return .nothing

/-- Goes on with an exchange to its end. -/
def settle (h : Hop) : Async (Except Failure Reply) := do
  let answer ← ask h
  match _e : h.resume answer with
  | .over outcome => return outcome
  | .ask next => settle next
  termination_by h.redirections
  decreasing_by exact Hop.redirections_lt _e

/-- Sends a request and brings what becomes of it; it is given up when its time has passed. -/
def send (timeoutSeconds : Option Nat) (r : Request) : Async Outcome := do
  match Progress.ofRequest r with
  | .over outcome => return outcome.mapError Failure.toFetchError
  | .ask h =>
    let settled : Async Outcome := do return (← settle h).mapError Failure.toFetchError
    match timeoutSeconds with
    | none => settled
    | some limit =>
      let late : Async Outcome := do
        sleep (.ofNat (limit * 1000))
        return .error (.timeout limit)
      Async.race settled late

end LiveQuery.Http.Network
