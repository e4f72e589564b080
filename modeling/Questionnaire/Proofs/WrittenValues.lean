import Mathlib.Data.List.Forall2
import Questionnaire.Proofs.WrittenScalars

/-! Values as they are written. Both texts of a value, with and without lines, take the reader from
where a value may begin to behind that value, whatever is open around it and whatever follows: an
array or object is a run of entries between commas, and one law about such runs serves items and
members, both texts and every depth. So both texts have the same shape, and from it the value is read
back with all members of its objects, repeated keys included. -/
namespace Questionnaire.WrittenValues
open Json WrittenScalars

/-- A value in which every number is an integer that is read back as an integer. -/
inductive Integral : Json → Prop
  | null : Integral .null
  | bool (truth : Bool) : Integral (.bool truth)
  | integer {value : Int} : Fits value → Integral (.number (.integer value))
  | string (text : String) : Integral (.string text)
  | array {items : List Json} : (∀ item ∈ items, Integral item) → Integral (.array items)
  | object {members : List (String × Json)} :
    (∀ member ∈ members, Integral member.2) → Integral (.object members)

theorem integral_array {α : Type} {toJson : α → Json} {entries : List α}
    (each : ∀ entry ∈ entries, Integral (toJson entry)) :
    Integral (.array (entries.map toJson)) :=
  .array (List.forall_mem_map.mpr each)

/-- The members of an object have values that are read back. -/
def MembersIntegral (members : List (String × Json)) : Prop :=
  ∀ member ∈ members, Integral member.2

theorem membersIntegral_nil : MembersIntegral [] :=
  List.forall_mem_nil _

theorem membersIntegral_cons {key : String} {value : Json} {members : List (String × Json)}
    (here : Integral value) (later : MembersIntegral members) :
    MembersIntegral ((key, value) :: members) :=
  List.forall_mem_cons.mpr ⟨here, later⟩

theorem membersIntegral_single {key : String} {value : Json} (integral : Integral value) :
    MembersIntegral [(key, value)] :=
  membersIntegral_cons integral membersIntegral_nil

theorem MembersIntegral.append {first second : List (String × Json)}
    (front : MembersIntegral first) (behind : MembersIntegral second) :
    MembersIntegral (first ++ second) :=
  List.forall_mem_append.mpr ⟨front, behind⟩

mutual

/-- The shape of a value that is written correctly. -/
def nodeOf : Json → Node
  | .null => .null
  | .bool truth => .bool truth
  | .number value => .number (lexemeOf value)
  | .string text => .string (lexemeOf text)
  | .array items => .array (itemNodes items) .closed
  | .object members => .object (memberNodes members) .closed
termination_by structural value => value

/-- The shapes of items. -/
def itemNodes : List Json → List Node
  | [] => []
  | item :: items => nodeOf item :: itemNodes items
termination_by structural items => items

/-- The shapes of members. -/
def memberNodes : List (String × Json) → List (Lexeme String × Node)
  | [] => []
  | (key, value) :: members => (lexemeOf key, nodeOf value) :: memberNodes members
termination_by structural members => members

end

mutual

/-- A value is read back from its shape. -/
theorem value_nodeOf : (value : Json) → (nodeOf value).value = .ok value
  | .null | .bool _ | .number _ | .string _ => rfl
  | .array items => by
    rw [nodeOf, Node.value, itemValues_itemNodes items]
    rfl
  | .object members => by
    rw [nodeOf, Node.value, memberValues_memberNodes members]
    rfl
termination_by structural value => value

theorem itemValues_itemNodes : (items : List Json) → itemValues (itemNodes items) = .ok items
  | [] => rfl
  | item :: items => by
    rw [itemNodes, itemValues, value_nodeOf item, itemValues_itemNodes items]
    rfl
termination_by structural items => items

theorem memberValues_memberNodes :
    (members : List (String × Json)) → memberValues (memberNodes members) = .ok members
  | [] => rfl
  | (key, value) :: members => by
    rw [memberNodes, memberValues, value_nodeOf value, memberValues_memberNodes members]
    rfl
termination_by structural members => members

end

/-- Reads a text from a state. -/
def run (state : State) (text : List Char) : State :=
  (scan text).foldl State.take state

private theorem run_mark {c : Char} {token : Token} (solid : isSpace c = false)
    (scanned : ∀ rest, scanToken c rest = (token, rest)) (state : State) (rest : List Char) :
    run state (c :: rest) = run (state.take token) rest := by
  rw [run, scan_solid solid, scanned]
  rfl

private theorem run_blanks {blanks : List Char} (blank : ∀ c ∈ blanks, isSpace c = true)
    (state : State)
    (rest : List Char) : run state (blanks ++ rest) = run state rest := by
  induction blanks with
  | nil => rfl
  | cons c blanks ih =>
    rw [List.cons_append, run, scan_blank (blank c List.mem_cons_self)]
    exact ih fun c later => blank c (List.mem_cons_of_mem _ later)

private theorem apart_blanks {blanks rest : List Char} (blank : ∀ c ∈ blanks, isSpace c = true)
    (apart : Apart rest) : Apart (blanks ++ rest) := by
  cases blanks with
  | nil => exact apart
  | cons c blanks =>
    have space := blank c List.mem_cons_self
    simp only [isSpace, Bool.or_eq_true, beq_iff_eq] at space
    rcases space with ((rfl | rfl) | rfl) | rfl <;> exact apart_cons (by decide)

/-- The states in which a value may begin, with what is open around it. -/
inductive Awaits : State → List Frame → Prop
  | value (outer : List Frame) : Awaits (.value outer) outer
  | firstItem (outer : List Frame) : Awaits (.firstItem outer) (.array [] :: outer)
  | nextItem (items : List Node) (outer : List Frame) :
    Awaits (.nextItem items outer) (.array items :: outer)

private theorem Awaits.take {state : State} {outer : List Frame} {token : Token}
    (awaits : Awaits state outer) (opening : token ≠ .closeArray) :
    state.take token = .takeValue outer token := by
  cases awaits <;> cases token <;> first | rfl | exact absurd rfl opening

/-- A text writes a node: it takes the machine from where a value may begin to behind that node. -/
def Writes (text : List Char) (node : Node) : Prop :=
  ∀ ⦃state : State⦄ ⦃outer : List Frame⦄ ⦃rest : List Char⦄, Awaits state outer → Apart rest →
    run state (text ++ rest) = run (.behind node outer) rest

/-- A text that is scanned as one token writes what that token stands for. -/
theorem writes_token {text : List Char} {token : Token} {node : Node}
    (scanned : ∀ rest, Apart rest → scan (text ++ rest) = token :: scan rest)
    (opening : token ≠ .closeArray)
    (taken : ∀ outer, State.takeValue outer token = .behind node outer) : Writes text node := by
  intro state outer rest awaits apart
  rw [run, scanned rest apart, List.foldl_cons, awaits.take opening, taken]
  rfl

/-- How the machine reads the entries of an array or an object that stands in others. -/
structure Listing (α : Type) where
  /-- Directly behind the opening bracket. -/
  first : State
  /-- Behind a comma, with the entries so far, last first. -/
  next : List α → State
  /-- Behind an entry. -/
  behind : List α → State
  /-- Behind the closing bracket. -/
  closed : List α → State
  bracket : Char
  close : Token
  solid : isSpace bracket = false
  apart : ∀ rest, Apart (bracket :: rest)
  scanned : ∀ rest, scanToken bracket rest = (close, rest)
  take_comma : ∀ entries, (behind entries).take .comma = next entries
  close_first : first.take close = closed []
  close_behind : ∀ entries, (behind entries).take close = closed entries.reverse

/-- The items of an array. -/
def itemsWithin (outer : List Frame) : Listing Node where
  first := .firstItem outer
  next items := .nextItem items outer
  behind items := .behindItem items outer
  closed items := .behind (.array items .closed) outer
  bracket := ']'
  close := .closeArray
  solid := by decide
  apart _ := apart_cons (by decide)
  scanned _ := rfl
  take_comma _ := rfl
  close_first := rfl
  close_behind _ := rfl

/-- The members of an object. -/
def membersWithin (outer : List Frame) : Listing (Lexeme String × Node) where
  first := .firstKey outer
  next members := .nextKey members outer
  behind members := .behindMember members outer
  closed members := .behind (.object members .closed) outer
  bracket := '\x7d'
  close := .closeObject
  solid := by decide
  apart _ := apart_cons (by decide)
  scanned _ := rfl
  take_comma _ := rfl
  close_first := rfl
  close_behind _ := rfl

namespace Listing

variable {α : Type} (listing : Listing α)

/-- The states in which an entry may begin, with the entries in front of it. -/
inductive Expects : State → List α → Prop
  | first : Expects listing.first []
  | next (entries : List α) : Expects (listing.next entries) entries

/-- A text writes an entry. -/
def Enters (text : List Char) (entry : α) : Prop :=
  ∀ ⦃state : State⦄ ⦃entries : List α⦄ ⦃rest : List Char⦄, listing.Expects state entries →
    Apart rest → run state (text ++ rest) = run (listing.behind (entry :: entries)) rest

variable {listing}

private theorem Enters.behind_blanks {blanks text : List Char} {entry : α}
    (blank : ∀ c ∈ blanks, isSpace c = true) (enters : listing.Enters text entry) :
    listing.Enters (blanks ++ text) entry := by
  intro state entries rest expects apart
  rw [List.append_assoc, run_blanks blank]
  exact enters expects apart

private theorem run_bracket (state : State) (rest : List Char) :
    run state (listing.bracket :: rest) = run (state.take listing.close) rest :=
  run_mark listing.solid listing.scanned state rest

/-- Entries between commas are read one behind the other, up to the bracket that closes them. What has
been read so far moves into the state. -/
theorem run_entries {text : List Char} {entry : α} {texts : List (List Char)} {entries : List α}
    {blanks : List Char} (blank : ∀ c ∈ blanks, isSpace c = true) (rest : List Char)
    (here : listing.Enters text entry) (later : List.Forall₂ listing.Enters texts entries)
    {state : State} {earlier : List α} (expects : listing.Expects state earlier) :
    run state ([','].intercalate (text :: texts) ++ (blanks ++ listing.bracket :: rest)) =
      run (listing.closed (earlier.reverse ++ entry :: entries)) rest := by
  induction later generalizing text entry state earlier with
  | nil =>
    have ended : Apart (blanks ++ listing.bracket :: rest) :=
      apart_blanks blank (listing.apart rest)
    rw [List.intercalate_singleton, here expects ended, run_blanks blank, run_bracket,
      listing.close_behind, List.reverse_cons]
  | cons second others ih =>
    have ended : ∀ rest, Apart (',' :: rest) := fun _ => apart_cons (by decide)
    have comma : ∀ state rest, run state (',' :: rest) = run (state.take .comma) rest :=
      run_mark (by decide) fun _ => rfl
    rw [List.intercalate_cons_cons, List.append_assoc, List.append_assoc, List.singleton_append,
      here expects (ended _), comma, listing.take_comma, ih second (.next _), List.reverse_cons,
      List.append_assoc, List.singleton_append]

/-- The whole of an array or object behind its opening bracket. -/
theorem run_listing {texts : List (List Char)} {entries : List α} {blanks : List Char}
    (blank : ∀ c ∈ blanks, isSpace c = true)
    (enters : List.Forall₂ listing.Enters texts entries) (rest : List Char) :
    run listing.first ([','].intercalate texts ++ (blanks ++ listing.bracket :: rest)) =
      run (listing.closed entries) rest := by
  cases enters with
  | nil =>
    rw [List.intercalate_nil, List.nil_append, run_blanks blank, run_bracket, listing.close_first]
  | cons here later => exact run_entries blank rest here later .first

end Listing

/-- The text of a value is the text of an item, whatever the array stands in. -/
theorem Writes.enters {text : List Char} {node : Node} (writes : Writes text node)
    (outer : List Frame) : (itemsWithin outer).Enters text node := by
  intro state items rest expects apart
  have awaits : Awaits state (.array items :: outer) := by cases expects <;> constructor
  exact writes awaits apart

/-- A quoted key, a colon and the text of a value are the text of a member. -/
theorem Writes.enters_member {text blanks : List Char} {node : Node} (writes : Writes text node)
    (blank : ∀ c ∈ blanks, isSpace c = true) (key : String) (outer : List Frame) :
    (membersWithin outer).Enters (quote key ++ ':' :: (blanks ++ text)) (lexemeOf key, node) := by
  intro state members rest expects apart
  have taken : state.take (.string (lexemeOf key)) = .behindKey members (lexemeOf key) outer := by
    cases expects <;> rfl
  have colon : ∀ state rest, run state (':' :: rest) = run (state.take .colon) rest :=
    run_mark (by decide) fun _ => rfl
  have keyed : ∀ rest, run state (quote key ++ rest) =
      run (.behindKey members (lexemeOf key) outer) rest := by
    intro rest
    rw [run, scan_quote, List.foldl_cons, taken]
    rfl
  rw [List.append_assoc, keyed, List.cons_append, colon, List.append_assoc, run_blanks blank]
  exact writes (.value _) apart

private theorem writes_array {texts : List (List Char)} {nodes : List Node} {blanks : List Char}
    (blank : ∀ c ∈ blanks, isSpace c = true)
    (enters : ∀ outer, List.Forall₂ (itemsWithin outer).Enters texts nodes) :
    Writes ('[' :: ([','].intercalate texts ++ (blanks ++ [']']))) (.array nodes .closed) := by
  intro state outer rest awaits apart
  have opened : state.take .openArray = .firstItem outer := awaits.take (by simp)
  rw [List.cons_append, run_mark (by decide) (fun _ => rfl), opened, List.append_assoc,
    List.append_assoc]
  exact Listing.run_listing blank (enters outer) rest

private theorem writes_object {texts : List (List Char)} {members : List (Lexeme String × Node)}
    {blanks : List Char} (blank : ∀ c ∈ blanks, isSpace c = true)
    (enters : ∀ outer, List.Forall₂ (membersWithin outer).Enters texts members) :
    Writes ('\x7b' :: ([','].intercalate texts ++ (blanks ++ ['\x7d'])))
      (.object members .closed) := by
  intro state outer rest awaits apart
  have opened : state.take .openObject = .firstKey outer := awaits.take (by simp)
  rw [List.cons_append, run_mark (by decide) (fun _ => rfl), opened, List.append_assoc,
    List.append_assoc]
  exact Listing.run_listing blank (enters outer) rest

private theorem itemNodes_eq (items : List Json) : itemNodes items = items.map nodeOf := by
  induction items with
  | nil => rfl
  | cons item items ih => rw [itemNodes, ih, List.map_cons]

private theorem memberNodes_eq (members : List (String × Json)) :
    memberNodes members = members.map fun member => (lexemeOf member.1, nodeOf member.2) := by
  induction members with
  | nil => rfl
  | cons member members ih => rw [memberNodes, ih, List.map_cons]

/-- Two lists are related one for one if each entry's images are. -/
theorem forall₂_map_map {α β γ : Type} {related : β → γ → Prop} {left : α → β} {right : α → γ}
    {entries : List α} (each : ∀ entry ∈ entries, related (left entry) (right entry)) :
    List.Forall₂ related (entries.map left) (entries.map right) := by
  rw [List.forall₂_map_left_iff, List.forall₂_map_right_iff, List.forall₂_same]
  exact each

theorem newLine_blank (depth : Nat) : ∀ c ∈ newLine depth, isSpace c = true := by
  intro c member
  rcases List.mem_cons.mp member with rfl | later
  · rfl
  · rw [(List.mem_replicate.mp later).2]
    rfl

theorem lastLine_blank {α : Type} (depth : Nat) (entries : List α) :
    ∀ c ∈ lastLine depth entries, isSpace c = true := by
  cases entries with
  | nil => simp [lastLine]
  | cons entry entries => exact newLine_blank depth

private theorem writes_null : Writes (scalarChars .null) (nodeOf .null) := by
  have scanned : ∀ rest, scan (scalarChars .null ++ rest) = .null :: scan rest :=
    fun _ => scan_solid (by decide) _
  exact writes_token (fun rest _ => scanned rest) Token.noConfusion fun _ => rfl

private theorem writes_bool (truth : Bool) :
    Writes (scalarChars (.bool truth)) (nodeOf (.bool truth)) := by
  have scanned : ∀ rest, scan (scalarChars (.bool truth) ++ rest) = .bool truth :: scan rest := by
    intro rest
    cases truth <;> exact scan_solid (by decide) _
  exact writes_token (fun rest _ => scanned rest) Token.noConfusion fun _ => rfl

private theorem writes_integer {value : Int} (fits : Fits value) :
    Writes (scalarChars (.number (.integer value))) (nodeOf (.number (.integer value))) :=
  writes_token (fun _ apart => scan_integer fits apart) Token.noConfusion fun _ => rfl

private theorem writes_string (text : String) :
    Writes (scalarChars (.string text)) (nodeOf (.string text)) :=
  writes_token (fun rest _ => scan_quote text rest) Token.noConfusion fun _ => rfl

/-- The text without blanks writes the shape of its value. -/
theorem compact_writes {value : Json} (integral : Integral value) :
    Writes (compactChars value) (nodeOf value) := by
  have none : ∀ c ∈ ([] : List Char), isSpace c = true := by simp
  induction integral with
  | null => exact writes_null
  | bool truth => exact writes_bool truth
  | integer fits => exact writes_integer fits
  | string text => exact writes_string text
  | array _ ih =>
    rw [compactChars_array, nodeOf, itemNodes_eq]
    exact writes_array none fun outer =>
      forall₂_map_map fun item member => (ih item member).enters outer
  | object _ ih =>
    rw [compactChars_object, nodeOf, memberNodes_eq]
    exact writes_object none fun outer =>
      forall₂_map_map fun member held => (ih member held).enters_member none member.1 outer

/-- So does the indented text, at every depth. -/
theorem pretty_writes {value : Json} (integral : Integral value) (depth : Nat) :
    Writes (prettyChars depth value) (nodeOf value) := by
  have space : ∀ c ∈ [' '], isSpace c = true := List.forall_mem_singleton.mpr rfl
  induction integral generalizing depth with
  | null => exact writes_null
  | bool truth => exact writes_bool truth
  | integer fits => exact writes_integer fits
  | string text => exact writes_string text
  | array _ ih =>
    rw [prettyChars_array, nodeOf, itemNodes_eq]
    refine writes_array (lastLine_blank depth _) fun outer => forall₂_map_map fun item member => ?_
    exact ((ih item member (depth + 1)).enters outer).behind_blanks (newLine_blank (depth + 1))
  | object _ ih =>
    rw [prettyChars_object, nodeOf, memberNodes_eq]
    refine writes_object (lastLine_blank depth _) fun outer =>
      forall₂_map_map fun member held => ?_
    exact ((ih member held (depth + 1)).enters_member space member.1 outer).behind_blanks
      (newLine_blank (depth + 1))

/-- A text that writes a node has its shape, and nothing behind it. -/
theorem Writes.shape {text : List Char} {node : Node} (writes : Writes text node) :
    Shape.ofText (String.ofList text) = ⟨node, false⟩ := by
  have ended : run (.value []) text = .finished node false := by
    have read := writes (.value []) apart_nil
    rw [List.append_nil] at read
    rw [read, run, scan]
    rfl
  rw [Shape.ofText, Shape.ofTokens, String.toList_ofList]
  exact congrArg State.shape ended

/-- What a reader makes of the text of a value is what it makes of the shape of that value. -/
theorem readText_compact {α : Type} (reader : Reader α) {value : Json} (integral : Integral value) :
    readText reader value.compact = reader (nodeOf value) := by
  rw [readText, compact, (compact_writes integral).shape]
  cases reader (nodeOf value) <;> rfl

/-- Lines do not matter to a reader. -/
theorem readText_pretty {α : Type} (reader : Reader α) {value : Json} (integral : Integral value) :
    readText reader value.pretty = reader (nodeOf value) := by
  rw [readText, pretty, (pretty_writes integral 0).shape]
  cases reader (nodeOf value) <;> rfl

end Questionnaire.WrittenValues
