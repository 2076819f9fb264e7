import ConversationFlow.Schema.Record

/-!
# Names of fields

The field names of all records, each in its two spellings.
-/

namespace ConversationFlow.Schema.Keys

def id : Key := .same "id"
def label : Key := .same "label"
def action : Key := .same "action"
def value : Key := .same "value"
def title : Key := .same "title"
def subtitle : Key := .same "subtitle"
def imageUrl : Key := ⟨"imageUrl", "image_url"⟩
def buttons : Key := .same "buttons"
def type : Key := .same "type"
def items : Key := .same "items"
def required : Key := .same "required"
def options : Key := .same "options"
def credentials : Key := .same "credentials"
def strategy : Key := .same "strategy"
def retryCount : Key := ⟨"retryCount", "retry_count"⟩
def retryDelay : Key := ⟨"retryDelay", "retry_delay"⟩
def fallbackNodeId : Key := ⟨"fallbackNodeId", "fallback_node_id"⟩
def fallbackMessage : Key := ⟨"fallbackMessage", "fallback_message"⟩
def name : Key := .same "name"
def defaultValue : Key := ⟨"defaultValue", "default_value"⟩
def content : Key := .same "content"
def contentType : Key := ⟨"contentType", "content_type"⟩
def richContent : Key := ⟨"richContent", "rich_content"⟩
def question : Key := .same "question"
def expectedInputType : Key := ⟨"expectedInputType", "expected_input_type"⟩
def saveToVariable : Key := ⟨"saveToVariable", "save_to_variable"⟩
def validationRegex : Key := ⟨"validationRegex", "validation_regex"⟩
def validationMessage : Key := ⟨"validationMessage", "validation_message"⟩
def maxRetries : Key := ⟨"maxRetries", "max_retries"⟩
def expression : Key := .same "expression"
def evaluator : Key := .same "evaluator"
def method : Key := .same "method"
def url : Key := .same "url"
def headers : Key := .same "headers"
def body : Key := .same "body"
def auth : Key := .same "auth"
def timeout : Key := .same "timeout"
def retries : Key := .same "retries"
def saveResponseTo : Key := ⟨"saveResponseTo", "save_response_to"⟩
def errorOnHttpError : Key := ⟨"errorOnHttpError", "error_on_http_error"⟩
def duration : Key := .same "duration"
def unit : Key := .same "unit"
def actionType : Key := ⟨"actionType", "action_type"⟩
def parameters : Key := .same "parameters"
def fields : Key := .same "fields"
def submitButtonText : Key := ⟨"submitButtonText", "submit_button_text"⟩
def variableName : Key := ⟨"variableName", "variable_name"⟩
def operation : Key := .same "operation"
def tagNames : Key := ⟨"tagNames", "tag_names"⟩
def segmentId : Key := ⟨"segmentId", "segment_id"⟩
def assignmentType : Key := ⟨"assignmentType", "assignment_type"⟩
def agentId : Key := ⟨"agentId", "agent_id"⟩
def teamId : Key := ⟨"teamId", "team_id"⟩
def message : Key := .same "message"
def endFlow : Key := ⟨"endFlow", "end_flow"⟩
def reason : Key := .same "reason"
def targetNodeId : Key := ⟨"targetNodeId", "target_node_id"⟩
def condition : Key := .same "condition"
def priority : Key := .same "priority"
def config : Key := .same "config"
def transitions : Key := .same "transitions"
def errorHandler : Key := ⟨"errorHandler", "error_handler"⟩
def timeoutSeconds : Key := ⟨"timeoutSeconds", "timeout_seconds"⟩
def maxIterations : Key := ⟨"maxIterations", "max_iterations"⟩
def errorBehavior : Key := ⟨"errorBehavior", "error_behavior"⟩
def definitions : Key := .same "variables"
def version : Key := .same "version"
def description : Key := .same "description"
def metadata : Key := .same "metadata"
def entryNodeId : Key := ⟨"entryNodeId", "entry_node_id"⟩
def nodes : Key := .same "nodes"
def data : Key := .same "data"
def source : Key := .same "source"
def target : Key := .same "target"
def sourceHandle : Key := ⟨"sourceHandle", "source_handle"⟩
def targetHandle : Key := ⟨"targetHandle", "target_handle"⟩
def edges : Key := .same "edges"
def viewport : Key := .same "viewport"
def createdAt : Key := ⟨"createdAt", "created_at"⟩
def updatedAt : Key := ⟨"updatedAt", "updated_at"⟩
def publishedAt : Key := ⟨"publishedAt", "published_at"⟩
def createdBy : Key := ⟨"createdBy", "created_by"⟩
def status : Key := .same "status"
def tags : Key := .same "tags"
def inboxId : Key := ⟨"inboxId", "inbox_id"⟩
def code : Key := .same "code"
def nodeId : Key := ⟨"nodeId", "node_id"⟩
def valid : Key := .same "valid"
def errors : Key := .same "errors"
def warnings : Key := .same "warnings"

end ConversationFlow.Schema.Keys
