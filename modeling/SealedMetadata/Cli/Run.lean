import SealedMetadata.Cli.Command
import SealedMetadata.Link.Secrets
import SealedMetadata.Payload.Login
import SealedMetadata.Settings

/-!
One run of the command line: the settings are read, a missing secret is asked for, and the
command's output, or its failure, is written. Log lines go where failures go.
-/

namespace SealedMetadata.Cli

/-- What a run leaves: its status, what it wrote, and what it asked for. -/
structure Run where
  exit : Nat
  stdout : String
  stderr : String
  asked : List String
  deriving DecidableEq

/-- What a command line comes to: it is not carried out, or run. -/
inductive Report
  | usage (exit : Nat)
  | ran (r : Run)
  deriving DecidableEq

/-- The status of a command line that is not carried out. -/
def Stop.exit : Stop → Nat
  | help => 0
  | fault => 2

namespace Command

/-- The secret on the command line, or the text that asks for it. -/
def secret : Command → RawText ⊕ String
  | encrypt _ key _ | decrypt _ key => orAsk key "Master key: "
  | loginHash _ _ password _ => orAsk password "Password: "
  | linkHash password => orAsk password "Link password: "
where
  /-- The given text, or else a question. -/
  orAsk (given : Option RawText) (question : String) : RawText ⊕ String :=
    match given with
    | some s => .inl s
    | none => .inr question

/-- The lines that show credentials. -/
def credentialLines (showMasterKey : Bool) (c : Credentials) : Except Failure String := do
  let sent ← c.sentPasswordHex
  if showMasterKey then
    let key ← c.masterKeyHex
    return "sent_password: " ++ sent ++ "\nmaster_key: " ++ key
  else return "sent_password: " ++ sent

/-- The output of a command, without its last line end. What is decrypted or derived is held in
sealed buffers, which are read before they are wiped. -/
def carryOut (settings : Settings) (secret : RawText) : Command → Vaulted String
  | encrypt data _ version =>
    Vaulted.perform (Blob.encryptTextUnread data.secret secret.secret
      (version.getD settings.metadataVersion.request))
  | decrypt data _ => do
    let plain ← Blob.decryptSealed data.secret secret.secret
    Vaulted.within plain (Vaulted.inspect fun v => plain.text v)
  | loginHash authVersion salt _ showMasterKey => do
    let derived ← Vaulted.perform
      (Credentials.forVersionUnread authVersion secret.secret (salt.mapM RawText.secret))
    let c ← SealedCredentials.keep derived
    c.within (Vaulted.inspect fun v => credentialLines showMasterKey (c.contents v))
  | linkHash _ => do
    let hashed ← Vaulted.perform (Link.hashPasswordUnread secret.secret)
    return "password_hashed: " ++ hashed.1 ++ "\nsalt: " ++ hashed.2

/-- A command on its own, with no buffers but those that it makes. -/
def perform (settings : Settings) (secret : RawText) (c : Command) : Action String :=
  (c.carryOut settings secret).runIn .empty

end Command

/-- The line that tells of a failure. -/
def errorLine (e : Failure) : String := "error: " ++ e.message?.getD "" ++ "\n"

def unlines (lines : List String) : String := String.join (lines.map fun l => l ++ "\n")

/-- What a performed command leaves. Failures of the library's own kinds are told and logged;
all others end the run. -/
def report (time : String) (level : Int) (name : String) (asked : List String)
    (outcome : Except Failure String × List Log.Event) : Except Failure Run :=
  match outcome.1 with
  | .ok output =>
    .ok ⟨0, output ++ "\n", unlines (Log.lines time level outcome.2), asked⟩
  | .error e =>
    if e.kind.isOwn then
      let events := outcome.2 ++ [.commandFailed name e.kind]
      .ok ⟨1, "", unlines (Log.lines time level events) ++ errorLine e, asked⟩
    else .error e

/-- The level from which a command's events are written. -/
def levelFor (settings : Settings) (i : Invocation) : Int :=
  if i.verbose then Log.debugLevel else settings.logLevel

/-- The run of a command under settings. The first of the prepared answers is given if a secret
is asked for; without one the input has ended. -/
def runWith (time : String) (settings : Settings) (i : Invocation) (answers : List RawText) :
    Action Run := do
  let level := levelFor settings i
  match i.command.secret with
  | .inl s =>
    let outcome ← (i.command.perform settings s).observe
    Action.ofExcept (report time level i.command.name [] outcome)
  | .inr question =>
    match answers with
    | [] => Action.fail .endOfInput
    | answer :: _ =>
      let outcome ← (i.command.perform settings answer).observe
      Action.ofExcept (report time level i.command.name [question] outcome)

/-- The run of a command line in an environment. The command line is judged before the
environment is read. -/
def run (separators : Separators) (time : String) (args : List RawText)
    (env : Settings.Environment) (answers : List RawText) : Action Report :=
  match Invocation.ofArguments separators args with
  | .error stop => return .usage stop.exit
  | .ok i =>
    match Settings.ofEnvironment env with
    | .error e => return .ran ⟨1, "", errorLine e, []⟩
    | .ok settings => Report.ran <$> runWith time settings i answers

/-- The question that a command line will ask in an environment, if it asks one. -/
def question? (separators : Separators) (args : List RawText) (env : Settings.Environment) :
    Option String :=
  match Invocation.ofArguments separators args, Settings.ofEnvironment env with
  | .ok i, .ok _ =>
    match i.command.secret with
    | .inl _ => none
    | .inr question => some question
  | _, _ => none

end SealedMetadata.Cli
