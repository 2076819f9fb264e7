import ConversationFlow.Schema.Keys

/-!
# Metadata

What a caller says about a flow: its name, its dates, who made it and how far along it is. Dates that
are not given may be stamped with the current time.
-/

namespace ConversationFlow

open Schema

/-- How far along a flow is. -/
inductive Status where
  | draft
  | published
  | archived
deriving DecidableEq, Repr

instance : Choice Status where
  all := [.draft, .published, .archived]
  name
    | .draft => "draft"
    | .published => "published"
    | .archived => "archived"

/-- What is known about a flow besides its nodes. -/
structure Metadata where
  name : Option Text
  description : Option Text
  createdAt : Timestamp
  updatedAt : Timestamp
  publishedAt : Option Timestamp
  createdBy : Text
  status : Status
  tags : List Text
  inboxId : Option Int
deriving DecidableEq

namespace Metadata

/-- A date that has to be given, or is stamped if it is not. -/
def stamped (stamp : Option Timestamp) (source : Source) (f : Fields) (key : Key) :
    Reading Timestamp :=
  match stamp with
  | some now => f.defaulted key now (timestamp source)
  | none => f.required key (timestamp source)

def ofFields (stamp : Option Timestamp) (source : Source) (f : Fields) : Reading Metadata :=
  Metadata.mk
    <$> f.optional Keys.name text
    <*> f.optional Keys.description text
    <*> stamped stamp source f Keys.createdAt
    <*> stamped stamp source f Keys.updatedAt
    <*> f.optional Keys.publishedAt (timestamp source)
    <*> f.defaulted Keys.createdBy "system" text
    <*> f.defaulted Keys.status .draft choice
    <*> f.defaulted Keys.tags [] (list source text)
    <*> f.optional Keys.inboxId integer

def writeTimestamp (t : Timestamp) : Json :=
  .str t.text

instance : Record Metadata where
  title := "FlowMetadata"
  keys := [Keys.name, Keys.description, Keys.createdAt, Keys.updatedAt, Keys.publishedAt,
    Keys.createdBy, Keys.status, Keys.tags, Keys.inboxId]
  extraKeys := .refused
  readFields := ofFields none
  write nulls m := Json.record nulls
    [Keys.name.mayHold (m.name.map .str),
      Keys.description.mayHold (m.description.map .str),
      Keys.createdAt.holds (writeTimestamp m.createdAt),
      Keys.updatedAt.holds (writeTimestamp m.updatedAt),
      Keys.publishedAt.mayHold (m.publishedAt.map writeTimestamp),
      Keys.createdBy.holds (.str m.createdBy),
      Keys.status.holds (writeChoice m.status),
      Keys.tags.holds (writeTexts m.tags),
      Keys.inboxId.mayHold (m.inboxId.map .int)]

/-- Metadata from fields of which the dates may be missing; they are stamped then. -/
def stampedOfFields (now : Timestamp) (f : Fields) : Reading Metadata :=
  (ofFields (some now) .values f <* f.closed (Record.keys Metadata)).checkedBy f.spelled

end Metadata

end ConversationFlow
