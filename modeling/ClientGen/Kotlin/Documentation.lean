import ClientGen.Kotlin.Profile
import ClientGen.Kotlin.Source

/-!
# Documentation

Every model and every API has a page of its own, as tables of its properties or
operations.
-/

namespace ClientGen.Kotlin.Documentation

open Client (Constant Property Model Argument Call Api)

/-- A text between backticks. -/
def code (s : String) : String := "\x60" ++ s ++ "\x60"

/-- The mark of what may be left out. -/
def optionalNote (required : Bool) : String := if required then "" else "[optional]"

/-- The row of a constant. -/
def constantRow (c : Constant) : String := "| " ++ c.name ++ " | " ++ code c.wireValue ++ " |"

/-- The row of a property. -/
def propertyRow (v : Property) : String :=
  "| **" ++ v.name ++ "** | " ++ code v.dataType ++ " | " ++ v.description.getD "" ++ " | "
    ++ optionalNote v.required ++ (if v.readOnly then " [readonly]" else "") ++ " |"

/-- What a page of a model says about it. -/
def modelBody (m : Model) : List String :=
  if m.isEnum then
    ["## Enum", "", "| Name | Value |", "| ---- | ----- |"] ++ m.constants.map constantRow
  else if m.writtenAsAlias then ["Type alias for " ++ code (m.dataType.getD "none") ++ "."]
  else
    ["## Properties", "", "| Name | Type | Description | Notes |",
     "| ---- | ---- | ----------- | ----- |"] ++ m.views.all.map propertyRow

/-- **The page of a model.** -/
def modelPage (m : Model) : SourceFile where
  path := documentationFile m.className
  content := Text.join "\n" (["# " ++ m.className, ""]
    ++ linesFor m.description (fun d => [d, ""]) ++ modelBody m
    ++ ["", "[Back to Model list](../README.md#documentation-for-models)"])

/-- The anchor of an operation on its page. -/
def anchor (call : Call) : String := call.nickname.toLower

/-- An operation as a link and its request. -/
def operationCells (page : String) (call : Call) : String :=
  "[**" ++ call.nickname ++ "**](" ++ page ++ ".md#" ++ anchor call ++ ") | **"
    ++ call.method ++ "** " ++ call.path ++ " | " ++ call.summary.getD "" ++ " |"

/-- The row of an argument. -/
def argumentRow (q : Argument) : String :=
  "| **" ++ q.name ++ "** | " ++ code q.dataType ++ " | " ++ q.description.getD "" ++ " | "
    ++ optionalNote q.required ++ " |"

/-- The media types of a request or a response. -/
def mediaTypes (ms : List (Option String)) : String :=
  if ms.isEmpty then "Not defined" else Text.join ", " (ms.map (·.getD ""))

/-- The table of the arguments of an operation. -/
def argumentTable (call : Call) : List String :=
  if call.arguments.isEmpty then ["This endpoint does not need any parameter."]
  else
    ["### Parameters", "", "| Name | Type | Description | Notes |",
     "| ---- | ---- | ----------- | ----- |"] ++ call.arguments.map argumentRow

/-- The section of an operation. -/
def operationSection (call : Call) : List String :=
  ["", "<a name=\"" ++ anchor call ++ "\"></a>", "## **" ++ call.nickname ++ "**", ""]
    ++ linesFor call.summary (fun s => [s, ""]) ++ argumentTable call
    ++ ["", "### Return type", "",
        (call.returnType.map code).getD "null (empty response body)", "",
        "### HTTP request headers", "", " - **Content-Type**: " ++ mediaTypes call.consumes,
        " - **Accept**: " ++ mediaTypes call.produces]

/-- The line about where the API is served. -/
def servedAt (basePath : Option String) : String :=
  "All URIs are relative to *" ++ basePath.getD "" ++ "*"

/-- **The page of an API.** -/
def apiPage (basePath : Option String) (api : Api) : SourceFile where
  path := documentationFile api.className
  content := unlines (["# " ++ api.className, "", servedAt basePath, "",
      "| Method | HTTP request | Description |", "| ------ | ------------ | ----------- |"]
    ++ api.calls.map (fun call => "| " ++ operationCells api.className call)
    ++ api.calls.flatMap operationSection)

end ClientGen.Kotlin.Documentation
