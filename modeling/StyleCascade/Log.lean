import StyleCascade.Forest.Basic
import StyleCascade.Selector.Parser
import StyleCascade.Style

/-!
# The log

What the library does not report in a result it reports in its log: input that it drops, rules
that it registers, and each step of a computation. An operation that writes to the log has a
result of type `Logged`, which carries the events beside the value. An event holds what it is
about; its wording is made when somebody asks for it.

A listener chooses how much to hear by a `Verbosity`.
-/

namespace StyleCascade

inductive Severity where
  /-- Input was dropped. -/
  | warn
  /-- The rules have changed. -/
  | debug
  /-- A step of a computation. -/
  | trace
  deriving DecidableEq, Repr

/-- Something worth a line in the log. -/
inductive Event where
  /-- A declaration was dropped. -/
  | droppedValue (error : StyleError)
  /-- A declaration was made on the dummy style. -/
  | ignoredWrite (property : Property)
  /-- A text is no selector. -/
  | rejectedSelector (text : String) (error : ParseError)
  /-- A rule was registered. -/
  | registeredRule (text : String) (slot : Nat) (specificity : Specificity)
  /-- A rule applies to an element, of the given type, by means of some of its ancestors. -/
  | matchedRule (text typeName : String) (ancestors : Nat)
  /-- A component was not appended to one of its descendants. -/
  | refusedAppend (parent child : ComponentId)
  /-- The style of a component was computed. -/
  | resolved (component : Component) (style : Style)

namespace Event

def severity : Event → Severity
  | droppedValue _ | ignoredWrite _ | rejectedSelector .. | refusedAppend .. => .warn
  | registeredRule .. => .debug
  | matchedRule .. | resolved .. => .trace

/-- The wording of an event, after the tag that all of them share. -/
def body : Event → String
  | droppedValue error => error.message
  | ignoredWrite property => "Ignoring " ++ property.name ++ " on the dummy style"
  | rejectedSelector text error =>
    "Rejected selector " ++ Text.quote text ++ ": " ++ error.message
  | registeredRule text slot specificity =>
    "Registered " ++ Text.quote text ++ " as rule " ++ slot.repr ++ " " ++ specificity.text
  | matchedRule text typeName ancestors =>
    Text.quote text ++ " matches " ++ typeName ++ " (" ++ ancestors.repr ++ " ancestors)"
  | refusedAppend parent child =>
    "refusing to append " ++ child.repr ++ " under " ++ parent.repr
  | resolved component style => "resolved " ++ component.text ++ " -> " ++ style.text

def message (e : Event) : String := "[Style] " ++ e.body

end Event

/-- How much of the log a listener hears. -/
inductive Verbosity where
  | off
  | error
  | warn
  | info
  | debug
  | trace
  deriving DecidableEq, Repr

namespace Verbosity

/-- Test whether events of a weight are heard. -/
def admits : Verbosity → Severity → Bool
  | off, _ | error, _ => false
  | warn, s | info, s => s == .warn
  | debug, s => s != .trace
  | trace, _ => true

def filter (v : Verbosity) (events : List Event) : List Event :=
  events.filter fun e => v.admits e.severity

end Verbosity

/-- A value with the events of its computation, in order. -/
structure Logged (α : Type) where
  value : α
  events : List Event := []

namespace Logged

variable {α β : Type}

/-- One computation after another: the events of the first come first. -/
instance : Monad Logged where
  pure a := { value := a }
  bind x f := { value := (f x.value).value, events := x.events ++ (f x.value).events }

def note (e : Event) : Logged Unit := { value := (), events := [e] }

@[simp] theorem value_pure (a : α) : (pure a : Logged α).value = a := rfl

@[simp] theorem events_pure (a : α) : (pure a : Logged α).events = [] := rfl

@[simp] theorem value_bind (x : Logged α) (f : α → Logged β) :
    (x >>= f).value = (f x.value).value := rfl

@[simp] theorem events_bind (x : Logged α) (f : α → Logged β) :
    (x >>= f).events = x.events ++ (f x.value).events := rfl

@[simp] theorem value_map (f : α → β) (x : Logged α) : (f <$> x).value = f x.value := rfl

end Logged
end StyleCascade
