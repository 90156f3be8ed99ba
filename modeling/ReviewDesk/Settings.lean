import ReviewDesk.Form.Basic
import ReviewDesk.Token.Basic

/-!
# Settings
-/

namespace ReviewDesk

structure Settings where
  apiRoot : String := "/api/v1"
  projectName : String := "AI Code Review Assistant"
  version : String := "1.0.0"
  environment : Value := .text "development"
  secretKey : String := "your-super-secret-key-change-in-production-minimum-32-characters"
  accessMinutes : Int := 11520
  refreshMinutes : Int := 43200
  origins : List String :=
    ["http://localhost:3000", "http://localhost:8000", "http://127.0.0.1:3000",
     "https://localhost:3000", "https://localhost:8000"]
  baseUrl : String := "http://localhost:8000"
  githubClientId : Option String := none
  githubClientSecret : Option String := none
  gitlabClientId : Option String := none
  gitlabClientSecret : Option String := none
  logLevel : Value := .text "INFO"
  logFormat : Value := .text "json"

namespace Settings

def tokens (s : Settings) : Token.Policy := ⟨s.secretKey, s.accessMinutes, s.refreshMinutes⟩

def set (s : Settings) (name : String) (v : Value) : Settings :=
  match name with
  | "ENVIRONMENT" => { s with environment := v }
  | "BASE_URL" => { s with baseUrl := v.plain }
  | "GITHUB_CLIENT_ID" => { s with githubClientId := v.text? }
  | "GITHUB_CLIENT_SECRET" => { s with githubClientSecret := v.text? }
  | "GITLAB_CLIENT_ID" => { s with gitlabClientId := v.text? }
  | "GITLAB_CLIENT_SECRET" => { s with gitlabClientSecret := v.text? }
  | "LOG_LEVEL" => { s with logLevel := v }
  | "LOG_FORMAT" => { s with logFormat := v }
  | _ => s

def setAll (s : Settings) (changes : Fields) : Settings :=
  changes.foldl (fun s c => s.set c.1 c.2) s

/-- The sites of a setting: a list, or names between commas. -/
def readOrigins (v : Value) : Outcome (List String) :=
  let place : List Value := [.text "BACKEND_CORS_ORIGINS"]
  let ofList (vs : List Value) : Outcome (List String) :=
    match Form.allOf (vs.zipIdx.map fun (x, i) =>
      let p := place ++ [.ofNat i]
      if x.isNull then .error [Form.nullFault p] else Form.readText p x) with
    | .ok names => .ok names
    | .error es => .error (.invalidFields es)
  match v with
  | .list vs => ofList vs
  | .text s =>
    if Text.begins s "[" then
      .error (.invalidFields [Form.fault place "type_error.list" "value is not a valid list"])
    else .ok ((Text.splitText s ",").map Text.trimmed)
  | v => .error (.invalidFields [Form.fault place "value_error" v.plain])

end Settings

end ReviewDesk
