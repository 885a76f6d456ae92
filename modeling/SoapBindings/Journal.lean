import SoapBindings.Service
-- What a run reports while it computes: records for the log, and the questions that it puts to the
-- naming strategy. `Journaled` is a computation with its report.

namespace SoapBindings

inductive Severity where
  | error
  | warn
  | info
  | debug
  | trace
  deriving DecidableEq, Repr

namespace Severity

def name : Severity → String
  | .error => "ERROR"
  | .warn  => "WARN"
  | .info  => "INFO"
  | .debug => "DEBUG"
  | .trace => "TRACE"

def rank : Severity → Nat
  | .error => 1
  | .warn  => 2
  | .info  => 3
  | .debug => 4
  | .trace => 5

end Severity

inductive Notice where
  | generatingPort (service port : String)
  | generatingOperation (operation : String)
  | discardingFault (fault operation : String)
  | untypedPart (part : String)
  | replacedName (part previous property : String)
  | unknownNamespaceKey (key : String)
  deriving DecidableEq, Repr

namespace Notice

def severity : Notice → Severity
  | generatingPort ..      => .debug
  | generatingOperation .. => .trace
  | discardingFault ..     => .debug
  | untypedPart ..         => .warn
  | replacedName ..        => .warn
  | unknownNamespaceKey .. => .debug

def text : Notice → String
  | generatingPort service port     => s!"Generating metadata for {service}/{port}"
  | generatingOperation operation   => s!"Generating operation {operation}"
  | discardingFault fault operation => s!"Discarding fault {fault} of operation {operation}"
  | untypedPart part                => s!"Part {part} has neither a type nor an element"
  | unknownNamespaceKey key         => s!"Ignoring unknown base namespace key {key}"
  | replacedName part previous property =>
    s!"Part {part} replaces {previous} under property {property}"

end Notice

-- A question to the naming strategy.
inductive Inquiry where
  | property (part : Part)
  | type (name : QName)
  | item (name : QName)
  deriving DecidableEq, Repr

inductive Event where
  | notice (n : Notice)
  | inquiry (q : Inquiry)
  deriving DecidableEq, Repr

structure Journaled (α : Type) where
  value  : α
  events : List Event

namespace Journaled

variable {α β : Type}

instance : Monad Journaled where
  pure a   := ⟨a, []⟩
  bind x f := ⟨(f x.value).value, x.events ++ (f x.value).events⟩

def report (e : Event) : Journaled Unit :=
  ⟨(), [e]⟩

def note (n : Notice) : Journaled Unit :=
  report (.notice n)

@[simp] theorem value_pure (a : α) : (pure a : Journaled α).value = a := rfl

@[simp] theorem events_pure (a : α) : (pure a : Journaled α).events = [] := rfl

@[simp] theorem value_bind (x : Journaled α) (f : α → Journaled β) :
    (x >>= f).value = (f x.value).value := rfl

@[simp] theorem events_bind (x : Journaled α) (f : α → Journaled β) :
    (x >>= f).events = x.events ++ (f x.value).events := rfl

end Journaled
end SoapBindings
