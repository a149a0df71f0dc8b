/-
The text format of event streams, as a browser reads it: lines with a field each,
a blank line after each message, and comments, which begin with a colon.
-/
import Mathlib.Data.List.TakeDrop
import Mathlib.Tactic.Common

namespace Conductor.EventStream

/-- The type of a message and its data. -/
structure Message where
  event : String
  data : String
deriving DecidableEq, Repr

/-- The line of a field. -/
def fieldLine (name value : List Char) : List Char := name ++ ':' :: ' ' :: value ++ ['\n']

/-- A line with the type of a message, one with its data, and a blank one. -/
def Message.text (message : Message) : List Char :=
  fieldLine "event".toList message.event.toList ++ fieldLine "data".toList message.data.toList ++
    ['\n']

/-- A comment, and a blank line. -/
def comment (text : List Char) : List Char := ':' :: text ++ ['\n'] ++ ['\n']

/-- A text without an end of a line. -/
def Unbroken (text : List Char) : Prop := ∀ c ∈ text, c ≠ '\n' ∧ c ≠ '\r'

instance (text : List Char) : Decidable (Unbroken text) :=
  List.decidableBAll (fun c => c ≠ '\n' ∧ c ≠ '\r') text

theorem Unbroken.append {text later : List Char} (htext : Unbroken text) (hlater : Unbroken later) :
    Unbroken (text ++ later) := by
  intro c hmem
  rcases List.mem_append.mp hmem with hmem | hmem
  · exact htext c hmem
  · exact hlater c hmem

/-- What a server sends: messages, and comments to keep the connection open. -/
inductive Chunk where
  | message (sent : Message)
  | comment (content : List Char)

namespace Chunk

def text : Chunk → List Char
  | .message sent => sent.text
  | .comment content => EventStream.comment content

def message? : Chunk → Option Message
  | .message sent => some sent
  | .comment _ => none

/-- It has no line breaks but those between its lines, and a message has a type. -/
def Formed : Chunk → Prop
  | .message sent => sent.event ≠ "" ∧ Unbroken sent.event.toList ∧ Unbroken sent.data.toList
  | .comment content => Unbroken content

end Chunk

/-- What has been made of the text: the line at its end, whether it ends in a
carriage return, the type and the data of the message that is coming, and the
messages that are complete. -/
structure Reader where
  line : List Char
  afterReturn : Bool
  event : List Char
  data : List Char
  messages : List Message

namespace Reader

def start : Reader := ⟨[], false, [], [], []⟩

variable (r : Reader)

/-- A field of the message that is coming.  The others have no part in it. -/
def field (name value : List Char) : Reader :=
  if name = "event".toList then { r with event := value }
  else if name = "data".toList then { r with data := r.data ++ value ++ ['\n'] }
  else r

/-- What stands after the name of a field: a colon, perhaps a space, the value. -/
def fieldValue : List Char → List Char
  | ':' :: ' ' :: value => value
  | ':' :: value => value
  | _ => []

/-- The message is complete.  Without data it is none. -/
def dispatch : Reader :=
  if r.data = [] then { r with event := [] }
  else
    let event := if r.event = [] then "message" else String.ofList r.event
    { r with
      event := []
      data := []
      messages := r.messages ++ [⟨event, String.ofList r.data.dropLast⟩] }

def endLine : Reader :=
  match r.line with
  | [] => r.dispatch
  | ':' :: _ => r
  | line => r.field (line.takeWhile (· ≠ ':')) (fieldValue (line.dropWhile (· ≠ ':')))

/-- A line ends in a line feed, in a carriage return, or in both. -/
def readChar (c : Char) : Reader :=
  if c = '\n' ∧ r.afterReturn = true then { r with afterReturn := false }
  else if c = '\n' ∨ c = '\r' then { r.endLine with line := [], afterReturn := c == '\r' }
  else { r with line := r.line ++ [c], afterReturn := false }

def read (text : List Char) : Reader := text.foldl readChar r

/-- Between two messages. -/
structure Rests : Prop where
  line : r.line = []
  afterReturn : r.afterReturn = false
  event : r.event = []
  data : r.data = []

variable {r}

theorem read_append (text later : List Char) : r.read (text ++ later) = (r.read text).read later :=
  List.foldl_append

theorem read_cons (c : Char) (text : List Char) : r.read (c :: text) = (r.readChar c).read text :=
  rfl

theorem rests_start : Rests start := ⟨rfl, rfl, rfl, rfl⟩

theorem messages_field (name value : List Char) : (r.field name value).messages = r.messages := by
  unfold field
  split
  · rfl
  · split <;> rfl

theorem messages_endLine : r.messages <+: r.endLine.messages := by
  unfold endLine
  split
  · unfold dispatch
    split
    · exact List.prefix_rfl
    · exact List.prefix_append _ _
  · exact List.prefix_rfl
  · exact (messages_field _ _).symm ▸ List.prefix_rfl

theorem messages_readChar (c : Char) : r.messages <+: (r.readChar c).messages := by
  unfold readChar
  split
  · exact List.prefix_rfl
  · split
    · exact messages_endLine
    · exact List.prefix_rfl

/-- Whatever comes later, a message that is complete stays. -/
theorem messages_read (text : List Char) : r.messages <+: (r.read text).messages := by
  induction text generalizing r with
  | nil => exact List.prefix_rfl
  | cons c text ih => exact messages_readChar c |>.trans ih

/-- Of a text that has not arrived in full the first messages are read. -/
theorem messages_prefix {text whole : List Char} (hinitial : text <+: whole) :
    (r.read text).messages <+: (r.read whole).messages := by
  obtain ⟨later, rfl⟩ := hinitial
  rw [read_append]
  exact messages_read later

theorem readChar_unbroken {c : Char} (hc : c ≠ '\n' ∧ c ≠ '\r') :
    r.readChar c = { r with line := r.line ++ [c], afterReturn := false } := by
  simp [readChar, hc.1, hc.2]

theorem read_unbroken {text : List Char} (htext : Unbroken text) (hreturn : r.afterReturn = false) :
    r.read text = { r with line := r.line ++ text } := by
  induction text generalizing r with
  | nil => simp [read]
  | cons c text ih =>
      have hrest : Unbroken text := fun d hd => htext d (List.mem_cons_of_mem c hd)
      rw [read_cons, readChar_unbroken (htext c List.mem_cons_self), ih hrest rfl]
      simp [hreturn]

/-- A line is read as a whole. -/
theorem read_line {text : List Char} (htext : Unbroken text) (hline : r.line = [])
    (hreturn : r.afterReturn = false) :
    r.read (text ++ ['\n']) =
      { endLine { r with line := text } with line := [], afterReturn := false } := by
  rw [read_append, read_unbroken htext hreturn, hline, List.nil_append]
  simp [read, readChar, hreturn]

theorem read_blank (hline : r.line = []) (hreturn : r.afterReturn = false) :
    r.read ['\n'] = { r.dispatch with line := [], afterReturn := false } := by
  obtain ⟨line, afterReturn, event, data, messages⟩ := r
  cases hline
  cases hreturn
  rfl

/-- A field is read, its name and its value apart. -/
theorem read_fieldLine {name value : List Char} (hname : ∀ c ∈ name, c ≠ ':') (hne : name ≠ [])
    (hunbroken : Unbroken name) (hvalue : Unbroken value) (hline : r.line = [])
    (hreturn : r.afterReturn = false) : r.read (fieldLine name value) = r.field name value := by
  have hwhole : Unbroken (name ++ ':' :: ' ' :: value) := by
    apply hunbroken.append
    rw [← List.singleton_append, ← List.singleton_append (x := ' ')]
    exact .append (by simp [Unbroken]) (.append (by simp [Unbroken]) hvalue)
  have hend : endLine { r with line := name ++ ':' :: ' ' :: value } =
      field { r with line := name ++ ':' :: ' ' :: value } name value := by
    have htake : (name ++ ':' :: ' ' :: value).takeWhile (· ≠ ':') = name := by
      rw [List.takeWhile_append_of_pos (by simpa using hname)]
      simp
    have hdrop : (name ++ ':' :: ' ' :: value).dropWhile (· ≠ ':') = ':' :: ' ' :: value := by
      rw [List.dropWhile_append_of_pos (by simpa using hname)]
      simp
    unfold endLine
    split
    · rename_i hnil
      simp at hnil
    · rename_i hcolon
      cases name with
      | nil => exact absurd rfl hne
      | cons c name =>
          cases hcolon
          exact absurd rfl (hname ':' List.mem_cons_self)
    · dsimp only
      rw [htake, hdrop]
      rfl
  rw [fieldLine, read_line hwhole hline hreturn, hend]
  obtain ⟨line, afterReturn, event, data, messages⟩ := r
  cases hline
  cases hreturn
  unfold field
  split
  · rfl
  · split <;> rfl

theorem field_event (value : List Char) :
    r.field "event".toList value = { r with event := value } := if_pos rfl

theorem field_data (value : List Char) :
    r.field "data".toList value = { r with data := r.data ++ value ++ ['\n'] } := by
  rw [field, if_neg (by decide), if_pos rfl]

/-- A message on two lines is read as it is. -/
theorem Rests.read_message (hrests : r.Rests) {message : Message} (hevent : message.event ≠ "")
    (hunbroken : Unbroken message.event.toList) (hdata : Unbroken message.data.toList) :
    r.read message.text = { r with messages := r.messages ++ [message] } := by
  obtain ⟨line, afterReturn, event, data, messages⟩ := r
  obtain ⟨rfl, rfl, rfl, rfl⟩ := hrests
  have hfirst : read ⟨[], false, [], [], messages⟩
      (fieldLine "event".toList message.event.toList) =
      ⟨[], false, message.event.toList, [], messages⟩ := by
    rw [read_fieldLine (by simp) (by decide) (by decide) hunbroken rfl rfl, field_event]
  have hsecond : read ⟨[], false, message.event.toList, [], messages⟩
      (fieldLine "data".toList message.data.toList) =
      ⟨[], false, message.event.toList, message.data.toList ++ ['\n'], messages⟩ := by
    rw [read_fieldLine (by simp) (by decide) (by decide) hdata rfl rfl, field_data,
      List.nil_append]
  have hname : message.event.toList ≠ [] := by simpa using hevent
  rw [Message.text, read_append, read_append, hfirst, hsecond, read_blank rfl rfl, dispatch,
    if_neg (by simp), if_neg hname]
  simp

/-- A comment is passed over. -/
theorem Rests.read_comment (hrests : r.Rests) {text : List Char} (htext : Unbroken text) :
    r.read (comment text) = r := by
  obtain ⟨line, afterReturn, event, data, messages⟩ := r
  obtain ⟨rfl, rfl, rfl, rfl⟩ := hrests
  have hcolon : Unbroken (':' :: text) := by
    rw [← List.singleton_append]
    exact .append (by decide) htext
  rw [comment, read_append, read_line hcolon rfl rfl, endLine, read_blank rfl rfl]
  rfl

theorem Rests.of_messages (hrests : r.Rests) (messages : List Message) :
    Rests { r with messages := messages } :=
  ⟨hrests.line, hrests.afterReturn, hrests.event, hrests.data⟩

/-- The messages of a stream are read, all of them, once and in order. -/
theorem Rests.read_chunks (hrests : r.Rests) {chunks : List Chunk}
    (hformed : ∀ chunk ∈ chunks, chunk.Formed) :
    r.read (chunks.flatMap Chunk.text) =
      { r with messages := r.messages ++ chunks.filterMap Chunk.message? } := by
  induction chunks generalizing r with
  | nil => simp [read]
  | cons chunk chunks ih =>
      obtain ⟨hhere, hlater⟩ := List.forall_mem_cons.mp hformed
      rw [List.flatMap_cons, read_append]
      cases chunk with
      | message sent =>
          obtain ⟨hevent, hunbroken, hdata⟩ := hhere
          rw [Chunk.text, hrests.read_message hevent hunbroken hdata,
            ih (hrests.of_messages _) hlater]
          simp [Chunk.message?]
      | comment content =>
          rw [Chunk.text, hrests.read_comment hhere, ih hrests hlater, List.filterMap_cons_none rfl]

end Reader

end Conductor.EventStream
