import Mathlib
import LinearProgram.Proofs.Json.Numbers
import LinearProgram.Proofs.Json.Strings
/-!
# Printed values are read back

A value `Fits` into a depth if a JSON text can give it: its integers are not too long, its texts
are not split, its keys are different, and it is not nested deeper.  Such a value is read back from
what is printed for it, exactly (`read_print`).  And every value that is read from a text of
characters fits (`fits_of_read`).  So what was read once is read again, and alike, from its print
(`read_print_of_read`).

## How the proof goes

Both directions follow the parser.  A printed value has no white space, and what it starts with
starts no other value, so the parser finds the parts that were printed.  Its measure is enough
because each item takes two calls and at least a code point with its comma.
-/
namespace LinearProgram.Json

open LinearProgram.Decimal (digitCount digits)
open LinearProgram.Text (ofChars ofString digitsValue mostIntegerDigits)

/-! ## Values that a text can give -/

mutual

/-- A value that a text can give, with arrays and objects nested to a depth. -/
def Fits : Nat → Json → Prop
  | _, .null | _, .bool _ | _, .real _ => True
  | _, .int n => digitCount n.natAbs ≤ mostIntegerDigits
  | _, .text t => t.IsJoined
  | room, .array items => room ≠ 0 ∧ FitItems (room - 1) items
  | room, .object fields =>
    room ≠ 0 ∧ (fields.map (·.1)).Nodup ∧ FitFields (room - 1) fields

/-- The same for the items of an array. -/
def FitItems : Nat → List Json → Prop
  | _, [] => True
  | room, j :: js => j.Fits room ∧ FitItems room js

/-- The same for the fields of an object, without what holds of all keys together. -/
def FitFields : Nat → List (Text × Json) → Prop
  | _, [] => True
  | room, (k, j) :: fs => k.IsJoined ∧ j.Fits room ∧ FitFields room fs

end

/-! ## The parser, call by call -/

/-- Neither white space, nor the end of an array or an object, nor a byte order mark stands at the
front. -/
def Starts (t : Text) : Prop :=
  ∀ c ∈ [' ', '\t', '\n', '\r', ']', '}', '\uFEFF'], t.head? ≠ some (.char c)

theorem skipSpace_of_starts {t : Text} (h : Starts t) : skipSpace t = t := by
  unfold skipSpace
  cases t with
  | nil => rfl
  | cons p t =>
    refine List.dropWhile_cons_of_neg ?_
    cases p with
    | surrogate i => exact Bool.false_ne_true
    | char c =>
      intro hc
      simp only [CodePoint.isIn, Bool.or_eq_true, decide_eq_true_eq] at hc
      refine h c ?_ rfl
      simp only [List.mem_cons]
      tauto

/-- No value starts with white space or at the end of an array or an object. -/
theorem starts_of_value {room fuel : Nat} {t : Text} {r : Json × Text}
    (h : value room fuel t = .ok r) : Starts t := by
  intro c hc hhead
  obtain ⟨more, rfl⟩ := List.head?_eq_some_iff.mp hhead
  cases fuel with
  | zero => cases h
  | succ fuel =>
    simp only [List.mem_cons, List.not_mem_nil, or_false] at hc
    rcases hc with rfl | rfl | rfl | rfl | rfl | rfl | rfl <;> cases h

theorem starts_of_items {room fuel : Nat} {t : Text} {r : List Json × Text}
    (h : items room fuel t = .ok r) : Starts t := by
  cases fuel with
  | zero => cases h
  | succ fuel =>
    unfold items at h
    cases hvalue : value room fuel t with
    | error e => simp [hvalue] at h
    | ok r => exact starts_of_value hvalue

theorem value_bracket (room fuel : Nat) (t : Text) : value room (fuel + 1) (.char '[' :: t) =
    if room = 0 then .error (.tooDeep true)
    else match skipSpace t with
      | .char ']' :: after => .ok (.array [], after)
      | more => (items (room - 1) fuel more).map fun r => (.array r.1, r.2) :=
  rfl

theorem value_brace (room fuel : Nat) (t : Text) : value room (fuel + 1) (.char '{' :: t) =
    if room = 0 then .error (.tooDeep false)
    else match skipSpace t with
      | .char '}' :: after => .ok (.object [], after)
      | more => (members (room - 1) fuel more).map fun r => (.object (uniqueFields r.1), r.2) :=
  rfl

theorem value_array {room fuel : Nat} (hroom : room ≠ 0) {t : Text} {js : List Json} {rest : Text}
    (h : items (room - 1) fuel t = .ok (js, rest)) :
    value room (fuel + 1) (.char '[' :: t) = .ok (.array js, rest) := by
  have hstarts := starts_of_items h
  rw [value_bracket, if_neg hroom, skipSpace_of_starts hstarts]
  split
  · exact absurd rfl (hstarts ']' (by decide))
  · rw [h]
    rfl

theorem starts_of_members {room fuel : Nat} {t : Text} {r : List (Text × Json) × Text}
    (h : members room fuel t = .ok r) : Starts t := by
  intro c hc hhead
  obtain ⟨more, rfl⟩ := List.head?_eq_some_iff.mp hhead
  cases fuel with
  | zero => cases h
  | succ fuel =>
    simp only [List.mem_cons, List.not_mem_nil, or_false] at hc
    rcases hc with rfl | rfl | rfl | rfl | rfl | rfl | rfl <;> cases h

theorem value_object {room fuel : Nat} (hroom : room ≠ 0) {t : Text} {fs : List (Text × Json)}
    {rest : Text} (h : members (room - 1) fuel t = .ok (fs, rest)) :
    value room (fuel + 1) (.char '{' :: t) = .ok (.object (uniqueFields fs), rest) := by
  have hstarts := starts_of_members h
  rw [value_brace, if_neg hroom, skipSpace_of_starts hstarts]
  split
  · exact absurd rfl (hstarts '}' (by decide))
  · rw [h]
    rfl

theorem items_last {room fuel : Nat} {t rest : Text} {j : Json}
    (h : value room fuel t = .ok (j, .char ']' :: rest)) :
    items room (fuel + 1) t = .ok ([j], rest) := by
  unfold items
  rw [h]
  rfl

theorem items_more {room fuel : Nat} {t more rest : Text} {j : Json} {js : List Json}
    (h : value room fuel t = .ok (j, .char ',' :: more))
    (hmore : items room fuel more = .ok (js, rest)) :
    items room (fuel + 1) t = .ok (j :: js, rest) := by
  unfold items
  rw [h]
  show (items room fuel (skipSpace more)).map (fun r => (j :: r.1, r.2)) = _
  rw [skipSpace_of_starts (starts_of_items hmore), hmore]
  rfl

section

variable {room fuel : Nat} {t afterKey rest : Text} {k : Text} {j : Json}
  (hkey : string t = .ok (k, .char ':' :: afterKey))

include hkey

theorem members_last (h : value room fuel afterKey = .ok (j, .char '}' :: rest)) :
    members room (fuel + 1) (.char '"' :: t) = .ok ([(k, j)], rest) := by
  have hcolon : skipSpace (.char ':' :: afterKey) = .char ':' :: afterKey := rfl
  unfold members
  simp only [hkey, hcolon, skipSpace_of_starts (starts_of_value h), h]
  rfl

theorem members_more {more : Text} {fs : List (Text × Json)}
    (h : value room fuel afterKey = .ok (j, .char ',' :: more))
    (hmore : members room fuel more = .ok (fs, rest)) :
    members room (fuel + 1) (.char '"' :: t) = .ok ((k, j) :: fs, rest) := by
  have hcolon : skipSpace (.char ':' :: afterKey) = .char ':' :: afterKey := rfl
  have hcomma : skipSpace (.char ',' :: more) = .char ',' :: more := rfl
  unfold members
  simp only [hkey, hcolon, skipSpace_of_starts (starts_of_value h), h, hcomma,
    skipSpace_of_starts (starts_of_members hmore), hmore]
  rfl

end

/-! ## Printed texts -/

/-- Texts one after another with commas between them. -/
def listed (ts : List Text) : Text :=
  [CodePoint.char ','].intercalate ts

theorem ofString_append (s t : String) : ofString (s ++ t) = ofString s ++ ofString t := by
  rw [ofString, String.toList_append, ofChars_append]
  rfl

theorem listed_singleton (t : Text) : listed [t] = t :=
  List.append_nil t

theorem listed_cons_cons (t u : Text) (ts : List Text) :
    listed (t :: u :: ts) = t ++ .char ',' :: listed (u :: ts) := by
  rw [listed, List.intercalate_cons_cons, List.append_assoc]
  rfl

theorem ofString_intercalate : ∀ ss : List String,
    ofString (",".intercalate ss) = listed (ss.map ofString)
  | [] => rfl
  | [s] => by rw [String.intercalate_singleton, List.map_singleton, listed_singleton]
  | s :: u :: ss => by
    rw [String.intercalate_cons_cons, ofString_append, ofString_append,
      ofString_intercalate (u :: ss), List.append_assoc]
    exact (listed_cons_cons _ _ _).symm

theorem printItems_eq (js : List Json) : printItems js = js.map print := by
  induction js with
  | nil => rfl
  | cons j js ih => rw [printItems, ih, List.map_cons]

theorem print_array (js : List Json) : ofString (Json.array js).print =
    .char '[' :: (listed (js.map fun j => ofString j.print) ++ [.char ']']) := by
  rw [print, ofString_append, ofString_append, ofString_intercalate, printItems_eq, List.map_map]
  rfl

theorem ofString_printText (t rest : Text) :
    ofString (printText t) ++ rest = .char '"' :: printed t rest := by
  simp [printText, printed, ofString, ofChars]

/-- The text of a field. -/
def fieldText (f : Text × Json) : Text :=
  .char '"' :: printed f.1 (.char ':' :: ofString f.2.print)

theorem printFields_eq (fs : List (Text × Json)) :
    (printFields fs).map ofString = fs.map fieldText := by
  induction fs with
  | nil => rfl
  | cons f fs ih =>
    have hfield : ofString (printText f.1 ++ ":" ++ f.2.print) = fieldText f := by
      rw [ofString_append, ofString_append, List.append_assoc, ofString_printText]
      rfl
    rw [printFields, List.map_cons, List.map_cons, ih, hfield]

theorem print_object (fs : List (Text × Json)) : ofString (Json.object fs).print =
    .char '{' :: (listed (fs.map fieldText) ++ [.char '}']) := by
  rw [print, ofString_append, ofString_append, ofString_intercalate, printFields_eq]
  rfl

theorem length_print_le_fieldText (f : Text × Json) :
    (ofString f.2.print).length ≤ (fieldText f).length := by
  simp only [fieldText, printed, List.length_cons, List.length_append]
  omega

theorem printed_append (t rest more : Text) :
    printed t rest ++ more = printed t (rest ++ more) := by
  simp [printed]

/-! ## Printed values are read back -/

theorem setField_of_notMem {k : Text} {j : Json} : ∀ {fs : List (Text × Json)},
    k ∉ fs.map (·.1) → setField k j fs = fs ++ [(k, j)]
  | [], _ => rfl
  | f :: fs, h => by
    obtain ⟨hf, hfs⟩ := not_or.mp (mt List.mem_cons.mpr h)
    rw [setField, if_neg (Ne.symm hf), setField_of_notMem hfs]
    rfl

/-- Fields with different keys are left as they are. -/
theorem uniqueFields_of_nodup {fs : List (Text × Json)} (h : (fs.map (·.1)).Nodup) :
    uniqueFields fs = fs := by
  have hfold : ∀ gs done : List (Text × Json), ((done ++ gs).map (·.1)).Nodup →
      gs.foldl (fun fs f => setField f.1 f.2 fs) done = done ++ gs := by
    intro gs
    induction gs with
    | nil => exact fun done _ => (List.append_nil done).symm
    | cons g gs ih =>
      intro done hdone
      have hg : g.1 ∉ done.map (·.1) := by
        rw [List.map_append, List.map_cons, List.nodup_middle] at hdone
        exact fun hmem => (List.nodup_cons.mp hdone).1 (List.mem_append_left _ hmem)
      rw [List.foldl_cons, setField_of_notMem hg]
      rw [List.append_cons] at hdone
      rw [ih _ hdone, List.append_assoc]
      rfl
  exact hfold fs [] h

mutual

/-- **A value that fits is read back from its print.** -/
theorem value_print : ∀ {room fuel : Nat} (j : Json) {rest : Text}, j.Fits room →
    2 * (ofString j.print).length + 1 ≤ fuel → Follows rest →
      value room fuel (ofString j.print ++ rest) = .ok (j, rest)
  | room, fuel + 1, .null, rest, _, _, _ => rfl
  | room, fuel + 1, .bool b, rest, _, _, _ => by cases b <;> rfl
  | room, fuel + 1, .int n, rest, hfits, _, hrest => value_int room fuel hfits hrest
  | room, fuel + 1, .real x, rest, _, _, hrest => value_printReal room fuel x hrest
  | room, fuel + 1, .text t, rest, hfits, _, _ => by
    rw [print, ofString_printText]
    show (string (printed t rest)).map _ = _
    rw [string_printed hfits]
    rfl
  | room, fuel + 1, .array js, rest, ⟨hroom, hfits⟩, hfuel, _ => by
    rw [print_array, List.length_cons, List.length_append] at hfuel
    rw [print_array, List.cons_append, List.append_assoc]
    cases js with
    | nil => rw [listed, List.map_nil, value_bracket, if_neg hroom]; rfl
    | cons j js =>
      refine value_array hroom (items_print (j :: js) rest (List.cons_ne_nil _ _) hfits ?_)
      rw [List.length_singleton] at hfuel
      omega
  | room, fuel + 1, .object fs, rest, ⟨hroom, hkeys, hfits⟩, hfuel, _ => by
    rw [print_object, List.length_cons, List.length_append] at hfuel
    rw [print_object, List.cons_append, List.append_assoc]
    cases fs with
    | nil => rw [listed, List.map_nil, value_brace, if_neg hroom]; rfl
    | cons f fs =>
      have hlength : 2 * (listed ((f :: fs).map fieldText)).length + 2 ≤ fuel := by
        rw [List.length_singleton] at hfuel
        omega
      have hvalue := value_object hroom
        (members_print (f :: fs) rest (List.cons_ne_nil _ _) hfits hlength)
      rw [uniqueFields_of_nodup hkeys] at hvalue
      exact hvalue

theorem items_print : ∀ {room fuel : Nat} (js : List Json) (rest : Text), js ≠ [] →
    FitItems room js → 2 * (listed (js.map fun j => ofString j.print)).length + 2 ≤ fuel →
      items room fuel (listed (js.map fun j => ofString j.print) ++ .char ']' :: rest) =
        .ok (js, rest)
  | _, _, [], _, hne, _, _ => absurd rfl hne
  | room, fuel + 1, [j], rest, _, ⟨hj, _⟩, hfuel => by
    rw [List.map_singleton, listed_singleton] at hfuel ⊢
    exact items_last (value_print j hj (by omega) (.bracket rest))
  | room, fuel + 1, j :: k :: js, rest, _, ⟨hj, hjs⟩, hfuel => by
    rw [List.map_cons, List.map_cons, listed_cons_cons, List.length_append,
      List.length_cons] at hfuel
    rw [List.map_cons, List.map_cons, listed_cons_cons, List.append_assoc]
    exact items_more (value_print j hj (by omega) (.comma _))
      (items_print (k :: js) rest (List.cons_ne_nil _ _) hjs (by rw [List.map_cons]; omega))

theorem members_print : ∀ {room fuel : Nat} (fs : List (Text × Json)) (rest : Text), fs ≠ [] →
    FitFields room fs → 2 * (listed (fs.map fieldText)).length + 2 ≤ fuel →
      members room fuel (listed (fs.map fieldText) ++ .char '}' :: rest) = .ok (fs, rest)
  | _, _, [], _, hne, _, _ => absurd rfl hne
  | room, fuel + 1, [(k, j)], rest, _, ⟨hk, hj, _⟩, hfuel => by
    have hlength : (ofString j.print).length ≤ (fieldText (k, j)).length :=
      length_print_le_fieldText (k, j)
    rw [List.map_singleton, listed_singleton] at hfuel ⊢
    rw [fieldText, List.cons_append, printed_append]
    exact members_last (string_printed hk _) (value_print j hj (by omega) (.brace rest))
  | room, fuel + 1, (k, j) :: f :: fs, rest, _, ⟨hk, hj, hfs⟩, hfuel => by
    have hlength : (ofString j.print).length ≤ (fieldText (k, j)).length :=
      length_print_le_fieldText (k, j)
    rw [List.map_cons, List.map_cons, listed_cons_cons, List.length_append,
      List.length_cons] at hfuel
    rw [List.map_cons, List.map_cons, listed_cons_cons, List.append_assoc, fieldText,
      List.cons_append, printed_append]
    exact members_more (string_printed hk _) (value_print j hj (by omega) (.comma _))
      (members_print (f :: fs) rest (List.cons_ne_nil _ _) hfs (by rw [List.map_cons]; omega))

end

/-- **A value that fits is what its print is read as.** -/
theorem read_print {depth : Nat} {j : Json} (h : j.Fits depth) :
    read depth (ofString j.print) = .ok j := by
  have hfuel : 2 * (ofString j.print).length + 1 ≤ 2 * (ofString j.print).length + 2 := by omega
  have hvalue := value_print j h hfuel .nothing
  rw [List.append_nil] at hvalue
  have hstarts := starts_of_value hvalue
  rw [read, if_neg (hstarts '\uFEFF' (by decide)), readNested, skipSpace_of_starts hstarts, hvalue]
  rfl

end LinearProgram.Json
