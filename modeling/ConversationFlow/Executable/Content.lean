import ConversationFlow.Schema.Keys

/-!
# Shared parts of configurations

Buttons, cards, form fields, credentials, error handlers and variable definitions: the records that
configurations of nodes and flows are made of.
-/

namespace ConversationFlow.Executable

open Schema

inductive ButtonAction where
  | reply
  | url
  | postback
deriving DecidableEq, Repr

instance : Choice ButtonAction where
  all := [.reply, .url, .postback]
  name
    | .reply => "reply"
    | .url => "url"
    | .postback => "postback"

structure MessageButton where
  id : Text
  label : Text
  action : ButtonAction
  value : Text
deriving DecidableEq

instance : Record MessageButton where
  title := "MessageButton"
  keys := [Keys.id, Keys.label, Keys.action, Keys.value]
  extraKeys := .refused
  readFields _ f := MessageButton.mk
    <$> f.required Keys.id text
    <*> f.defaulted Keys.label "" text
    <*> f.defaulted Keys.action .reply choice
    <*> f.defaulted Keys.value "" text
  write nulls b := Json.record nulls
    [Keys.id.holds (.str b.id),
      Keys.label.holds (.str b.label),
      Keys.action.holds (writeChoice b.action),
      Keys.value.holds (.str b.value)]

structure CardItem where
  title : Text
  subtitle : Option Text
  imageUrl : Option Text
  buttons : Option (List MessageButton)
deriving DecidableEq

instance : Record CardItem where
  title := "CardItem"
  keys := [Keys.title, Keys.subtitle, Keys.imageUrl, Keys.buttons]
  extraKeys := .refused
  readFields source f := CardItem.mk
    <$> f.defaulted Keys.title "" text
    <*> f.optional Keys.subtitle text
    <*> f.optional Keys.imageUrl text
    <*> f.optional Keys.buttons (list source (Record.read source))
  write nulls c := Json.record nulls
    [Keys.title.holds (.str c.title),
      Keys.subtitle.mayHold (c.subtitle.map .str),
      Keys.imageUrl.mayHold (c.imageUrl.map .str),
      Keys.buttons.mayHold (c.buttons.map (Record.writeAll nulls))]

/-- How cards are shown. -/
inductive RichKind where
  | card
  | carousel
  | list
deriving DecidableEq, Repr

instance : Choice RichKind where
  all := [.card, .carousel, .list]
  name
    | .card => "card"
    | .carousel => "carousel"
    | .list => "list"

/-- Cards that go with a message. -/
structure RichContent where
  kind : RichKind
  items : List CardItem
deriving DecidableEq

instance : Record RichContent where
  title := "RichMessageContent"
  keys := [Keys.type, Keys.items]
  extraKeys := .refused
  readFields source f := RichContent.mk
    <$> f.required Keys.type choice
    <*> f.defaulted Keys.items [] (list source (Record.read source))
  write nulls c := Json.record nulls
    [Keys.type.holds (writeChoice c.kind),
      Keys.items.holds (Record.writeAll nulls c.items)]

/-- A field of a form; its type is free text. -/
structure FormField where
  id : Text
  label : Text
  type : Text
  required : Bool
  options : Option (List Text)
deriving DecidableEq

instance : Record FormField where
  title := "FormField"
  keys := [Keys.id, Keys.label, Keys.type, Keys.required, Keys.options]
  extraKeys := .refused
  readFields source f := FormField.mk
    <$> f.required Keys.id text
    <*> f.defaulted Keys.label "" text
    <*> f.defaulted Keys.type "text" text
    <*> f.defaulted Keys.required false boolean
    <*> f.optional Keys.options (list source text)
  write nulls c := Json.record nulls
    [Keys.id.holds (.str c.id),
      Keys.label.holds (.str c.label),
      Keys.type.holds (.str c.type),
      Keys.required.holds (.bool c.required),
      Keys.options.mayHold (c.options.map writeTexts)]

inductive AuthKind where
  | bearer
  | basic
  | apiKey
deriving DecidableEq, Repr

instance : Choice AuthKind where
  all := [.bearer, .basic, .apiKey]
  name
    | .bearer => "bearer"
    | .basic => "basic"
    | .apiKey => "apiKey"

structure ApiAuth where
  kind : AuthKind
  credentials : Table Text
deriving DecidableEq

instance : Record ApiAuth where
  title := "ApiAuth"
  keys := [Keys.type, Keys.credentials]
  extraKeys := .refused
  readFields source f := ApiAuth.mk
    <$> f.required Keys.type choice
    <*> f.defaulted Keys.credentials .empty (mapping source text)
  write nulls a := Json.record nulls
    [Keys.type.holds (writeChoice a.kind),
      Keys.credentials.holds (writeTextTable a.credentials)]

/-- What an engine does when a node fails. -/
inductive ErrorStrategy where
  | retry
  | fallback
  | fail
  | ignore
deriving DecidableEq, Repr

instance : Choice ErrorStrategy where
  all := [.retry, .fallback, .fail, .ignore]
  name
    | .retry => "retry"
    | .fallback => "fallback"
    | .fail => "fail"
    | .ignore => "ignore"

structure ErrorHandler where
  strategy : ErrorStrategy
  retryCount : Option Int
  retryDelay : Option Int
  fallbackNodeId : Option Text
  fallbackMessage : Option Text
deriving DecidableEq

instance : Record ErrorHandler where
  title := "ErrorHandler"
  keys := [Keys.strategy, Keys.retryCount, Keys.retryDelay, Keys.fallbackNodeId,
    Keys.fallbackMessage]
  extraKeys := .refused
  readFields _ f := ErrorHandler.mk
    <$> f.required Keys.strategy choice
    <*> f.optional Keys.retryCount integer
    <*> f.optional Keys.retryDelay integer
    <*> f.optional Keys.fallbackNodeId text
    <*> f.optional Keys.fallbackMessage text
  write nulls h := Json.record nulls
    [Keys.strategy.holds (writeChoice h.strategy),
      Keys.retryCount.mayHold (h.retryCount.map .int),
      Keys.retryDelay.mayHold (h.retryDelay.map .int),
      Keys.fallbackNodeId.mayHold (h.fallbackNodeId.map .str),
      Keys.fallbackMessage.mayHold (h.fallbackMessage.map .str)]

/-- What a variable holds. -/
inductive VariableKind where
  | string
  | number
  | boolean
  | object
deriving DecidableEq, Repr

instance : Choice VariableKind where
  all := [.string, .number, .boolean, .object]
  name
    | .string => "string"
    | .number => "number"
    | .boolean => "boolean"
    | .object => "object"

/-- A variable of a flow; a null default is no default. -/
structure VariableDefinition where
  name : Text
  kind : VariableKind
  defaultValue : Json
  required : Bool
deriving DecidableEq

instance : Record VariableDefinition where
  title := "VariableDefinition"
  keys := [Keys.name, Keys.type, Keys.defaultValue, Keys.required]
  extraKeys := .refused
  readFields _ f := VariableDefinition.mk
    <$> f.required Keys.name text
    <*> f.defaulted Keys.type .string choice
    <*> f.defaulted Keys.defaultValue .null anything
    <*> f.defaulted Keys.required false boolean
  write nulls v := Json.record nulls
    [Keys.name.holds (.str v.name),
      Keys.type.holds (writeChoice v.kind),
      Keys.defaultValue.mayHold (if v.defaultValue = .null then none else v.defaultValue.finite),
      Keys.required.holds (.bool v.required)]

end ConversationFlow.Executable
