import MissionScript.Net.SocketAddress
import MissionScript.Numeral

namespace MissionScript

/-- Where the service listens, and the seed that makes its chance repeatable. -/
structure Config where
  host : String
  port : Nat
  seed : Option Nat
  deriving DecidableEq, Repr

namespace Config

inductive Fault
  | port (flaw : Numeral.Flaw)
  | seed (flaw : Numeral.Flaw)
  | address
  deriving DecidableEq, Repr

def Fault.message (fault : Fault) : String :=
  "configuration error: " ++ match fault with
    | port flaw => "PORT must be a valid u16: " ++ flaw.message
    | seed flaw => "BLOCKLAB_RNG_SEED must be a valid u64: " ++ flaw.message
    | address => "invalid HOST:PORT combination: invalid socket address syntax"

/-- Reads the settings; the port is looked at before the seed. Every variable may be missing. -/
def read (lookUp : String → Option String) : Except Fault Config := do
  let host := (lookUp "HOST").getD "0.0.0.0"
  let port ← match lookUp "PORT" with
    | none => .ok 3000
    | some text => (Numeral.readUnsigned (UInt16.size - 1) text.toList).mapError .port
  let seed ← match lookUp "BLOCKLAB_RNG_SEED" with
    | none => .ok none
    | some text => ((Numeral.readUnsigned (UInt64.size - 1) text.toList).map some).mapError .seed
  return { host, port, seed }

/-- The address that the host and the port make up. -/
def socketAddress (config : Config) : Except Fault Net.SocketAddress :=
  match Net.SocketAddress.read? (config.host ++ ":" ++ toString config.port) with
  | some address => .ok address
  | none => .error .address

end Config

end MissionScript
