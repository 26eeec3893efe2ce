import Wiring.Failure
import Wiring.Service.Key
import Wiring.Service.Lifetime

namespace Wiring

inductive LogLevel where
  | trace
  | debug
  | warn
deriving DecidableEq, Inhabited

namespace LogLevel

def label : LogLevel → String
  | .trace => "TRACE"
  | .debug => "DEBUG"
  | .warn => "WARN"

def rank : LogLevel → Nat
  | .trace => 0
  | .debug => 1
  | .warn => 2

def shows (threshold level : LogLevel) : Bool :=
  threshold.rank ≤ level.rank

end LogLevel

/-- Something that happened. Services appear by their labels. -/
inductive LogRecord where
  | registering (service implementation : String) (lifetime : Lifetime)
  | defaulting (service dependency : String) (depth : Nat)
  | planned (service : String) (nodes slots : Nat)
  | compiled (service : String) (lifetime : Lifetime) (nodes slots : Nat)
  | factoryReady (service : String) (nodes slots : Nat)
  | compilationFailed (service : String) (failure : Failure)
  | containerBuilt (services : Nat)
  | prewarmed (factories : Nat)
  | observedCompiled (observer service : String) (slots nodes : Nat)
  | observedResolved (observer service : String)
  | observedFailure (observer service : String) (failure : Failure)
deriving DecidableEq

inductive LogValue where
  | text (value : String)
  | number (value : Nat)
deriving DecidableEq

namespace LogRecord

def level : LogRecord → LogLevel
  | .registering _ _ _ => .trace
  | .defaulting _ _ _ => .trace
  | .planned _ _ _ => .trace
  | .observedFailure _ _ _ => .warn
  | _ => .debug

def message : LogRecord → String
  | .registering _ _ _ => "registering service"
  | .defaulting _ _ _ => "defaulting unregistered dependency"
  | .planned _ _ _ => "construction plan resolved"
  | .compiled _ _ _ _ => "compiled factory"
  | .factoryReady _ _ _ => "factory ready"
  | .compilationFailed _ _ => "factory compilation failed"
  | .containerBuilt _ => "service provider built"
  | .prewarmed _ => "provider prewarmed"
  | .observedCompiled _ _ _ _ => "factory compiled"
  | .observedResolved _ _ => "service resolved"
  | .observedFailure _ _ _ => "factory compilation failed"

def fields : LogRecord → List (String × LogValue)
  | .registering service implementation lifetime =>
    [("service", .text service), ("implementation", .text implementation),
     ("lifetime", .text lifetime.label)]
  | .defaulting service dependency depth =>
    [("service", .text service), ("dependency", .text dependency), ("depth", .number depth)]
  | .planned service nodes slots =>
    [("service", .text service), ("nodes", .number nodes), ("slots", .number slots)]
  | .compiled service lifetime nodes slots =>
    [("service", .text service), ("lifetime", .text lifetime.label), ("nodes", .number nodes),
     ("slots", .number slots)]
  | .factoryReady service nodes slots =>
    [("service", .text service), ("nodes", .number nodes), ("slots", .number slots)]
  | .compilationFailed service failure =>
    [("service", .text service), ("error", .text failure.message)]
  | .containerBuilt services => [("services", .number services)]
  | .prewarmed factories => [("compiled", .number factories)]
  | .observedCompiled observer service slots nodes =>
    [("prefix", .text observer), ("service", .text service), ("slots", .number slots),
     ("nodes", .number nodes)]
  | .observedResolved observer service =>
    [("prefix", .text observer), ("service", .text service)]
  | .observedFailure observer service failure =>
    [("prefix", .text observer), ("service", .text service), ("error", .text failure.message)]

end LogRecord

end Wiring
