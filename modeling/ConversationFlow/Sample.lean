import ConversationFlow.Json.Value
import ConversationFlow.Schema.Scalar
import ConversationFlow.Text.Quoted
import ConversationFlow.Text.Title

/-!
# Samples

Drawings as the editor saves them, which show every kind of node in use.
-/

namespace ConversationFlow

open Schema

/-- A drawing to start from. -/
inductive Sample where
  | welcome
  | leadCapture
  | supportRouter
  | productShowcase
deriving DecidableEq, Repr

instance : Choice Sample where
  all := [.welcome, .leadCapture, .supportRouter, .productShowcase]
  name
    | .welcome => "welcome"
    | .leadCapture => "lead_capture"
    | .supportRouter => "support_router"
    | .productShowcase => "product_showcase"

namespace Sample

def ofName? (name : Text) : Option Sample := Choice.ofName? name

def names : List Text := Choice.names Sample

def title (s : Sample) : Text :=
  Text.title (String.ofList ((Choice.name s).toList.map fun c => if c = '_' then ' ' else c))

/-- A node of the canvas; its label is its type as a title. -/
def node (id type : String) (x y : Int) (data : List (Text × Json)) : Json :=
  .obj
    [("id", .str id),
      ("type", .str type),
      ("position", .obj [("x", .int x), ("y", .int y)]),
      ("data", .obj (("label", .str (Text.title type)) :: data))]

def edge (id source target : String) : Json :=
  .obj [("id", .str id), ("source", .str source), ("target", .str target)]

/-- An edge that starts from a handle. -/
def branch (id source target handle : String) : Json :=
  .obj
    [("id", .str id), ("source", .str source), ("target", .str target),
      ("sourceHandle", .str handle)]

/-- An edge that starts from a handle and has a label. -/
def labelled (id source target handle label : String) : Json :=
  .obj
    [("id", .str id), ("source", .str source), ("target", .str target),
      ("sourceHandle", .str handle), ("label", .str label)]

def drawing (nodes edges : List Json) : Json :=
  .obj
    [("nodes", .arr nodes),
      ("edges", .arr edges),
      ("viewport", .obj [("x", .int 0), ("y", .int 0), ("zoom", .int 1)])]

def welcomeGraph : Json :=
  drawing
    [node "start-1" "start" 0 0 [],
      node "message-1" "message" 0 120 [("text", .str "Welcome! How can I help you today?")],
      node "end-1" "end" 0 240 [("message", .str "Thank you for chatting with us!")]]
    [edge "t1" "start-1" "message-1",
      edge "t2" "message-1" "end-1"]

/-- Questions, a request with a branch for its success and one for its failure, and a tag. -/
def leadCaptureGraph : Json :=
  drawing
    [node "start" "start" 0 0 [],
      node "ask-name" "question" 0 100
        [("question", .str "What's your name?"), ("variable", .str "name")],
      node "ask-email" "input" 0 200
        [("text", .str "And your email?"),
          ("inputType", .str "email"),
          ("saveToVariable", .str "email"),
          ("validation", .str "^[^@\\s]+@[^@\\s]+$")],
      node "save-lead" "api" 0 300
        [("method", .str "POST"),
          ("apiUrl", .str "https://crm.example.com/leads"),
          ("headers", .obj [("Content-Type", .str "application/json")]),
          ("body", .obj
            [("name", .str "\x7b\x7bname\x7d\x7d"), ("email", .str "\x7b\x7bemail\x7d\x7d")]),
          ("retries", .int 2)],
      node "tag-lead" "tag" (-150) 400 [("tags", .arr [.str "lead", .str "website"])],
      node "thanks" "message" (-150) 500
        [("text", .str "Thanks \x7b\x7bname\x7d\x7d, we'll be in touch!")],
      node "sorry" "message" 150 400
        [("text", .str "Something went wrong, please try again later.")],
      node "end" "end" 0 600 []]
    [edge "e1" "start" "ask-name",
      edge "e2" "ask-name" "ask-email",
      edge "e3" "ask-email" "save-lead",
      branch "e4" "save-lead" "tag-lead" "success",
      branch "e5" "save-lead" "sorry" "error",
      edge "e6" "tag-lead" "thanks",
      edge "e7" "thanks" "end",
      edge "e8" "sorry" "end"]

/-- A menu, conditions and a transfer to an agent. -/
def supportRouterGraph : Json :=
  drawing
    [node "start" "start" 0 0 [],
      node "menu" "message" 0 100
        [("text", .str "What do you need help with?"),
          ("buttons", .arr
            [.obj [("text", .str "Billing"), ("action", .str "billing")],
              .obj [("text", .str "Other")]])],
      node "is-billing" "condition" 0 200
        [("condition", .str "\x7b\x7b_lastResult\x7d\x7d == 'billing'")],
      node "vip-check" "advancedCondition" (-150) 300
        [("conditions", .arr
          [.obj
            [("expression", .str "\x7b\x7bcontact.tier\x7d\x7d == 'vip'"),
              ("field", .str "tier"),
              ("operator", .str "eq")]])],
      node "handoff" "transfer_agent" (-300) 400
        [("assignmentType", .str "team"),
          ("teamId", .int 7),
          ("message", .str "Connecting you to billing...")],
      node "wait" "delay" (-150) 400 [("delay", .str "30"), ("unit", .str "seconds")],
      node "faq" "dynamicText" 150 300
        [("text", .str "Here is our FAQ for \x7b\x7bcontact.name\x7d\x7d")],
      node "done" "end" 0 500 []]
    [edge "r1" "start" "menu",
      edge "r2" "menu" "is-billing",
      labelled "r3" "is-billing" "vip-check" "yes" "Billing",
      branch "r4" "is-billing" "faq" "no",
      branch "r5" "vip-check" "handoff" "true",
      branch "r6" "vip-check" "wait" "false",
      edge "r7" "wait" "handoff",
      edge "r8" "faq" "done"]

/-- Rich content, a form, a variable, a segment and an action. -/
def productShowcaseGraph : Json :=
  drawing
    [node "start" "start" 0 0 [],
      node "hero" "mediaMessage" 0 100
        [("mediaType", .str "image"),
          ("mediaUrl", .str "https://cdn.example.com/hero.png"),
          ("text", .str "New arrivals")],
      node "cards" "carousel" 0 200
        [("cards", .arr
          [.obj
            [("title", .str "Sneakers"),
              ("subtitle", .str "$89"),
              ("imageUrl", .str "https://cdn.example.com/s.png"),
              ("buttons", .arr [.obj [("text", .str "Buy"), ("action", .str "buy_sneakers")]])],
            .obj
              [("title", .str "Boots"),
                ("subtitle", .str "$129"),
                ("imageUrl", .str "https://cdn.example.com/b.png"),
                ("buttons", .arr [])]])],
      node "signup" "form" 0 300
        [("formTitle", .str "Stay in touch"),
          ("fields", .arr
            [.obj
              [("name", .str "email"),
                ("type", .str "email"),
                ("required", .bool true),
                ("placeholder", .str "Email")],
              .obj
                [("name", .str "size"),
                  ("type", .str "number"),
                  ("required", .bool false),
                  ("placeholder", .str "Shoe size")]])],
      node "count" "variable" 0 400
        [("variableName", .str "signups"),
          ("operation", .str "increment"),
          ("variableValue", .str "1")],
      node "segment" "segment" 0 500 [("segmentName", .str "newsletter")],
      node "notify" "action" 0 600
        [("actionType", .str "send_email"),
          ("parameters", .obj [("template", .str "welcome")])],
      node "end" "end" 0 700 []]
    [edge "p1" "start" "hero",
      edge "p2" "hero" "cards",
      edge "p3" "cards" "signup",
      edge "p4" "signup" "count",
      edge "p5" "count" "segment",
      edge "p6" "segment" "notify",
      edge "p7" "notify" "end"]

def graph : Sample → Json
  | welcome => welcomeGraph
  | leadCapture => leadCaptureGraph
  | supportRouter => supportRouterGraph
  | productShowcase => productShowcaseGraph

def unknownMessage (name : Text) : Text :=
  "Unknown sample flow '" ++ name ++ "'. Available: " ++ Text.quotedList names

end Sample

end ConversationFlow
