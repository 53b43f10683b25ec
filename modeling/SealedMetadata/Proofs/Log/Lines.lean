import SealedMetadata.Log
import SealedMetadata.Proofs.Text.Pieces

/-!
When events are written, and as which lines. All events are details: they are written only where
details were asked for. Of the numbers in an event the line has the decimal digits.
-/

namespace SealedMetadata.Log

/-- A level at which details are written. Zero is none: it leaves the choice to the level from
which warnings matter. -/
def ShowsDetails (level : Int) : Prop := level ≤ 10 ∧ level ≠ 0

instance (level : Int) : Decidable (ShowsDetails level) :=
  inferInstanceAs (Decidable (level ≤ 10 ∧ level ≠ 0))

theorem Event.level_record (e : Event) : e.record.level = debugLevel := by
  cases e <;> rfl

theorem isWritten_debugLevel_iff (level : Int) :
    isWritten level debugLevel = true ↔ ShowsDetails level := by
  have hpositive : decide (0 < debugLevel) = true := rfl
  have hten : debugLevel = 10 := rfl
  have hthirty : warningLevel = 30 := rfl
  rw [isWritten, hpositive, Bool.true_and, decide_eq_true_iff, threshold, ShowsDetails, hten,
    hthirty]
  split <;> omega

/-- The lines of one event at a time of day. -/
def Event.lines (time : String) (e : Event) : List String :=
  (Text.split '\n' (e.record.line time).toList).map String.ofList

theorem lines_of_details {level : Int} (h : ShowsDetails level) (time : String)
    (events : List Event) : lines time level events = events.flatMap (Event.lines time) := by
  have hall : ((events.map Event.record).filter fun r => isWritten level r.level) =
      events.map Event.record := by
    rw [List.filter_eq_self]
    intro r hr
    obtain ⟨e, -, rfl⟩ := List.mem_map.mp hr
    rw [Event.level_record]
    exact (isWritten_debugLevel_iff level).mpr h
  rw [lines, hall, List.flatMap_map]
  rfl

theorem lines_of_no_details {level : Int} (h : ¬ ShowsDetails level) (time : String)
    (events : List Event) : lines time level events = [] := by
  have hnone : ((events.map Event.record).filter fun r => isWritten level r.level) = [] := by
    rw [List.filter_eq_nil_iff]
    intro r hr
    obtain ⟨e, -, rfl⟩ := List.mem_map.mp hr
    rw [Event.level_record]
    exact mt (isWritten_debugLevel_iff level).mp h
  rw [lines, hnone]
  rfl

/-- The decimal digits of a number. -/
def digits (n : Nat) : String := String.ofList (Nat.toDigits 10 n)

def versionDigit : Version → String
  | .cbc => "1"
  | .gcm => "2"

theorem digits_number (v : Version) : digits v.number = versionDigit v := by
  cases v <;> decide

/-- The line of an event at a time of day, spelled out. -/
def Event.lineText (time : String) : Event → String
  | encrypting size version =>
    "[" ++ time ++ "] DEBUG cloudmeta.security.crypto: " ++ "Encrypting " ++ digits size ++
      " bytes of metadata as version " ++ versionDigit version
  | decrypting size version =>
    "[" ++ time ++ "] DEBUG cloudmeta.security.crypto: " ++ "Decrypting " ++ digits size ++
      " bytes of version " ++ versionDigit version ++ " metadata"
  | derivation authVersion =>
    "[" ++ time ++ "] DEBUG cloudmeta.security.credentials: " ++
      "Deriving login credentials for auth version " ++ authVersion
  | masterKeysRead count =>
    "[" ++ time ++ "] DEBUG cloudmeta.security.metadata: " ++ "Decrypted " ++ digits count ++
      " master key(s)"
  | keyMatched position =>
    "[" ++ time ++ "] DEBUG cloudmeta.security.metadata: " ++
      "Metadata decrypted with master key #" ++ digits position
  | commandFailed command kind =>
    "[" ++ time ++ "] DEBUG cloudmeta.cli: " ++ command ++ " failed: " ++ kind.name

theorem Event.line_record (time : String) (e : Event) : e.record.line time = e.lineText time := by
  have hlevel : levelName debugLevel = "DEBUG" := by decide
  have hdigits (n : Nat) : toString n = digits n := rfl
  -- each head is put together from the level and the logger
  have hcrypto : "] DEBUG cloudmeta.security.crypto: " =
      "] " ++ "DEBUG" ++ " " ++ "cloudmeta.security.crypto" ++ ": " := by decide +kernel
  have hcredentials : "] DEBUG cloudmeta.security.credentials: " =
      "] " ++ "DEBUG" ++ " " ++ "cloudmeta.security.credentials" ++ ": " := by decide +kernel
  have hmetadata : "] DEBUG cloudmeta.security.metadata: " =
      "] " ++ "DEBUG" ++ " " ++ "cloudmeta.security.metadata" ++ ": " := by decide +kernel
  have hcli : "] DEBUG cloudmeta.cli: " =
      "] " ++ "DEBUG" ++ " " ++ "cloudmeta.cli" ++ ": " := by decide +kernel
  rw [Record.line, level_record, hlevel]
  cases e with
  | encrypting size version | decrypting size version =>
    rw [lineText, hcrypto, ← digits_number]
    simp only [record, hdigits, String.append_assoc, -String.reduceAppend]
  | derivation _ =>
    rw [lineText, hcredentials]
    simp only [record, String.append_assoc, -String.reduceAppend]
  | masterKeysRead _ | keyMatched _ =>
    rw [lineText, hmetadata]
    simp only [record, hdigits, String.append_assoc, -String.reduceAppend]
  | commandFailed _ _ =>
    rw [lineText, hcli]
    simp only [record, String.append_assoc, -String.reduceAppend]

/-- The text that events leave: their lines, each with its line end. -/
def textOf (time : String) (events : List Event) : String :=
  String.join (events.map fun e => e.lineText time ++ "\n")

theorem textOf_append (time : String) (events later : List Event) :
    textOf time (events ++ later) = textOf time events ++ textOf time later := by
  rw [textOf, List.map_append, String.join_append]
  rfl

/-- A text without line ends. -/
def IsOneLine (s : String) : Prop := '\n' ∉ s.toList

instance (s : String) : Decidable (IsOneLine s) := inferInstanceAs (Decidable ('\n' ∉ s.toList))

theorem IsOneLine.append {s t : String} (hs : IsOneLine s) (ht : IsOneLine t) :
    IsOneLine (s ++ t) := by
  rw [IsOneLine, String.toList_append, List.mem_append]
  exact not_or.mpr ⟨hs, ht⟩

theorem isOneLine_toString (n : Nat) : IsOneLine (toString n) := by
  intro h
  -- a number is written in digits, and a line end is none
  have hmem : '\n' ∈ Nat.toDigits 10 n := by
    simpa using h
  have hdigit : '\n'.isDigit = true := Nat.isDigit_of_mem_toDigits (by decide) (by decide) hmem
  exact absurd hdigit (by decide)

theorem Event.isOneLine_logger (e : Event) : IsOneLine e.record.logger := by
  cases e <;> (simp only [record]; decide)

/-- A message without line ends makes one line. -/
theorem Event.lines_of_isOneLine {time : String} (htime : IsOneLine time) {e : Event}
    (h : IsOneLine e.record.message) : e.lines time = [e.record.line time] := by
  -- no part of the line has a line end in it
  have hline : IsOneLine (e.record.line time) := by
    have hlevel : IsOneLine (levelName e.record.level) := by
      rw [Event.level_record]
      decide
    have hstamp : IsOneLine ("[" ++ time ++ "] ") := .append (.append (by decide) htime) (by decide)
    have hsource : IsOneLine (levelName e.record.level ++ " " ++ e.record.logger ++ ": ") :=
      .append (.append (.append hlevel (by decide)) e.isOneLine_logger) (by decide)
    have hall := (hstamp.append hsource).append h
    rw [Record.line]
    simpa only [String.append_assoc] using hall
  have hpieces := Text.split_join (List.cons_ne_nil (e.record.line time).toList [])
    (List.forall_mem_singleton.mpr hline)
  rw [Text.join] at hpieces
  rw [lines, hpieces, List.map_singleton, String.ofList_toList]

/-- The texts in an event that come from outside, if any: they may hold line ends. -/
def Event.outerText : Event → String
  | derivation authVersion => authVersion
  | commandFailed command _ => command
  | encrypting _ _ | decrypting _ _ | masterKeysRead _ | keyMatched _ => ""

theorem Event.isOneLine_message {e : Event} (h : IsOneLine e.outerText) :
    IsOneLine e.record.message := by
  have hnumber (n : Nat) : IsOneLine (toString n) := isOneLine_toString n
  cases e with
  | encrypting size version =>
    exact ((IsOneLine.append (by decide) (hnumber size)).append (by decide)).append (hnumber _)
  | decrypting size version =>
    exact (((IsOneLine.append (by decide) (hnumber size)).append (by decide)).append
      (hnumber _)).append (by decide)
  | derivation authVersion => exact IsOneLine.append (by decide) h
  | masterKeysRead count => exact (IsOneLine.append (by decide) (hnumber count)).append (by decide)
  | keyMatched position => exact IsOneLine.append (by decide) (hnumber position)
  | commandFailed command kind =>
    have hname : IsOneLine kind.name := by
      cases kind <;> decide
    exact (IsOneLine.append h (by decide)).append hname

/-- Without line ends in the texts from outside, each line is that of one event. -/
theorem exists_event_of_mem_lines {time : String} (htime : IsOneLine time) {level : Int}
    {events : List Event} (h : ∀ e ∈ events, IsOneLine e.outerText) {line : String}
    (hline : line ∈ lines time level events) : ∃ e ∈ events, line = e.record.line time := by
  by_cases hlevel : ShowsDetails level
  · rw [lines_of_details hlevel, List.mem_flatMap] at hline
    obtain ⟨e, he, hmem⟩ := hline
    rw [Event.lines_of_isOneLine htime (Event.isOneLine_message (h e he)),
      List.mem_singleton] at hmem
    exact ⟨e, he, hmem⟩
  · rw [lines_of_no_details hlevel] at hline
    exact absurd hline List.not_mem_nil

end SealedMetadata.Log
