import P2PHub.JavaScriptValues

/-!
# Topics of events

The topic grammar and the wildcard match of `core/src/events/types.ts`, and the
size of a payload as the telemetry gates account for it.
-/

namespace P2PHub

def isTopicStart (char : Char) : Bool :=
  char.isAlphanum || char == '_'

def isTopicChar (char : Char) : Bool :=
  isTopicStart char || char == '.' || char == '-'

def isTopicName : List Char → Bool
  | [] => false
  | first :: rest => isTopicStart first && rest.all isTopicChar

def maxTopicSegments : Nat := 3

/-- `EVENT_TOPIC_RE`: a name, at most three further names behind colons, and
possibly a final `:*`. -/
def isEventTopic (topic : String) : Bool :=
  match (topic.toList.splitOn ':').reverse with
  | ['*'] :: name :: names =>
    (name :: names).all isTopicName && decide (names.length ≤ maxTopicSegments)
  | parts => parts.all isTopicName && decide (parts.length ≤ maxTopicSegments + 1)

def isWildcardTopic (topic : String) : Bool :=
  [':', '*'].isSuffixOf topic.toList

/-- A wildcard matches every topic behind its namespace and colon. -/
def topicMatches (subscribed actual : String) : Bool :=
  subscribed == actual ||
    (isWildcardTopic subscribed && subscribed.toList.dropLast.isPrefixOf actual.toList)

/-- The size of the serialized payload, or nothing when there is none. -/
def safeByteSize (payload : JsValue) : Option Nat :=
  match payload.stringify with
  | .ok (some text) => some text.utf8ByteSize
  | _ => none

example : isEventTopic "tasks:project:7:updated" ∧ isEventTopic "calendar:*" ∧
    ¬ isEventTopic "a:b:c:d:e" ∧ ¬ isEventTopic "*" := by
  decide

example : topicMatches "calendar:*" "calendar:eventAdded" ∧
    ¬ topicMatches "calendar:*" "calendarEvil:x" ∧ ¬ topicMatches "calendar:*" "calendar" := by
  decide

end P2PHub
