import FlatLiquid.Proofs.Json.Extent
import FlatLiquid.Proofs.Json.Structures
import Mathlib.Algebra.GroupWithZero.Nat
import Mathlib.Data.List.Nodup

/-!
Contract: what is read from a text and written again takes no more bytes than the text has for it.

Owns:
- the bytes of written JSON, in terms of its parts;
- the condition under which JSON grows no longer, which is about its numbers only;
- the numbers that always meet the condition, which are whole;
- the same for values of a type: for strings, lists, maps and structures.

Strings, lists and maps are never longer when they are written again. A number can be, since the
text may have an exponent where the written number has zeros. A structure can be, since all of its
fields are written, and under their names.
-/

namespace FlatLiquid.Json

/-! ## Written JSON -/

/-- The bytes of a value that is written without blanks. -/
def size (value : Json) : Nat :=
  byteSize value.printCompact

/-- The bytes of a field that is written without blanks, and of what stands after it. -/
def entrySize (entry : String × Json) : Nat :=
  byteSize (printString entry.1) + 1 + entry.2.size + 1

theorem byteSize_printItems (items : List Json) :
    byteSize (printItems items) = (items.map fun item => item.size + 1).sum - 1 := by
  have comma : ','.utf8Size = 1 := rfl
  induction items with
  | nil => rfl
  | cons item rest inductionHypothesis =>
    cases rest with
    | nil => rfl
    | cons next more =>
      have joined : printItems (item :: next :: more) =
          item.printCompact ++ ',' :: printItems (next :: more) := rfl
      rw [joined, byteSize_append, byteSize_cons, inductionHypothesis, comma]
      simp only [List.map_cons, List.sum_cons, size]
      omega

theorem byteSize_printFields (fields : List (String × Json)) :
    byteSize (printFields fields) = (fields.map entrySize).sum - 1 := by
  have colon : ':'.utf8Size = 1 := rfl
  have comma : ','.utf8Size = 1 := rfl
  induction fields with
  | nil => rfl
  | cons entry rest inductionHypothesis =>
    obtain ⟨key, value⟩ := entry
    cases rest with
    | nil =>
      rw [printFields, byteSize_append, byteSize_cons, colon]
      simp only [List.map_cons, List.map_nil, List.sum_cons, List.sum_nil, entrySize, size]
      omega
    | cons next more =>
      have joined : printFields ((key, value) :: next :: more) =
          printString key ++ ':' :: value.printCompact ++ ',' :: printFields (next :: more) := rfl
      rw [joined, byteSize_append, byteSize_append, byteSize_cons, byteSize_cons,
        inductionHypothesis, colon, comma]
      simp only [List.map_cons, List.sum_cons, entrySize, size]
      omega

theorem size_array (items : List Json) :
    (Json.array items).size = 2 + ((items.map fun item => item.size + 1).sum - 1) := by
  have bracket : byteSize [']'] = 1 := rfl
  rw [size, printCompact, List.cons_append, byteSize_cons, byteSize_append, byteSize_printItems,
    bracket]
  change 1 + (_ + 1) = _
  omega

theorem size_object (fields : List (String × Json)) :
    (Json.object fields).size = 2 + ((fields.map entrySize).sum - 1) := by
  have brace : byteSize ['\x7d'] = 1 := rfl
  rw [size, printCompact, List.cons_append, byteSize_cons, byteSize_append, byteSize_printFields,
    brace]
  change 1 + (_ + 1) = _
  omega

/-! ## Repeated keys -/

variable {α : Type}

/-- A put adds the weight of its entry at most. -/
theorem sum_putEntry_le (weight : String × α → Nat) (entries : List (String × α)) (key : String)
    (value : α) :
    ((putEntry entries key value).map weight).sum ≤
      (entries.map weight).sum + weight (key, value) := by
  induction entries with
  | nil => simp [putEntry]
  | cons entry rest inductionHypothesis =>
    rw [putEntry]
    split
    · next same =>
      rw [same]
      simp only [List.map_cons, List.sum_cons]
      omega
    · simp only [List.map_cons, List.sum_cons]
      omega

/-- A repeated key leaves no more than what its entries weigh one by one. -/
theorem sum_mergeFields_le (weight : String × α → Nat) (entries : List (String × α)) :
    ((mergeFields entries).map weight).sum ≤ (entries.map weight).sum := by
  have onTop : ∀ known : List (String × α),
      ((entries.foldl (fun known entry => putEntry known entry.1 entry.2) known).map weight).sum ≤
        (known.map weight).sum + (entries.map weight).sum := by
    induction entries with
    | nil => exact fun known => Nat.le_refl _
    | cons entry rest inductionHypothesis =>
      intro known
      have put : _ ≤ _ + weight entry := sum_putEntry_le weight known entry.1 entry.2
      have others := inductionHypothesis (putEntry known entry.1 entry.2)
      simp only [List.foldl_cons, List.map_cons, List.sum_cons]
      omega
  simpa [mergeFields] using onTop []

/-! ## Values -/

/-- A numeral has the bytes of what its number becomes at least. -/
def Numeral.fits (numeral : Numeral) (place : Cursor) (written : Number → Json) : Bool :=
  match numeral.value place.offset with
  | .ok value => (written value).size ≤ numeral.size
  | .error _ => true

mutual

/-- No number in a node grows longer when it is written again. -/
def Node.numbersFit : Node → Bool
  | .number numeral after => numeral.fits after .number
  | .array _ items _ => numbersFitInItems items
  | .object _ fields _ => numbersFitInFields fields
  | _ => true

/-- No number in items grows longer when it is written again. -/
def numbersFitInItems : List Node → Bool
  | [] => true
  | item :: rest => item.numbersFit && numbersFitInItems rest

/-- No number in the values of fields grows longer when it is written again. -/
def numbersFitInFields : List (Key × Node) → Bool
  | [] => true
  | (_, value) :: rest => value.numbersFit && numbersFitInFields rest

end

theorem Numeral.size_le_of_fits {numeral : Numeral} {place : Cursor} {written : Number → Json}
    {number : Number} (fits : numeral.fits place written = true)
    (value : numeral.value place.offset = .ok number) : (written number).size ≤ numeral.size := by
  rw [Numeral.fits, value] at fits
  exact of_decide_eq_true fits

theorem textSize_ok (text : List Char) :
    textSize (.ok text) = byteSize (printString (String.ofList text)) := rfl

mutual

/-- JSON whose numbers grow no longer grows no longer. -/
theorem Node.size_le_of_read {depth : Nat} {value : Json} :
    (node : Node) → node.numbersFit = true → node.read depth = .ok value → value.size ≤ node.size
  | .null _, _, read => by
    obtain rfl := Except.ok.inj read
    exact Nat.le_refl 4
  | .bool known _, _, read => by
    obtain rfl := Except.ok.inj read
    cases known with
    | false => exact Nat.le_refl 5
    | true => exact Nat.le_refl 4
  | .number numeral after, fits, read => by
    obtain ⟨number, found, rfl⟩ := exists_of_map_eq_ok read
    exact Numeral.size_le_of_fits fits found
  | .string text after, _, read => by
    obtain ⟨known, rfl, rfl⟩ := exists_of_map_eq_ok read
    exact Nat.le_refl _
  | .array start items ending, fits, read => by
    obtain ⟨values, _, rfl, _, found⟩ := exists_of_read_array read
    have inside := sum_le_of_readItems items fits found
    rw [size_array, Node.size]
    omega
  | .object start fields ending, fits, read => by
    obtain ⟨entries, _, rfl, _, found⟩ := exists_of_read_object read
    have inside := sum_le_of_readFields fields fits found
    have merged := sum_mergeFields_le entrySize entries
    rw [size_object, Node.size]
    omega
  | .broken stop, _, read => by contradiction

theorem sum_le_of_readItems {depth : Nat} {values : List Json} :
    (items : List Node) → numbersFitInItems items = true → readItems depth items = .ok values →
      (values.map fun value => value.size + 1).sum ≤ sizeOfItems items
  | [], _, read => by
    obtain rfl := Except.ok.inj read
    exact Nat.le_refl 0
  | item :: rest, fits, read => by
    rw [numbersFitInItems, Bool.and_eq_true] at fits
    obtain ⟨first, others, rfl, readFirst, readOthers⟩ := exists_of_readItems_cons read
    have ofFirst := Node.size_le_of_read item fits.1 readFirst
    have ofOthers := sum_le_of_readItems rest fits.2 readOthers
    simp only [List.map_cons, List.sum_cons, sizeOfItems]
    omega

theorem sum_le_of_readFields {depth : Nat} {entries : List (String × Json)} :
    (fields : List (Key × Node)) → numbersFitInFields fields = true →
      readFields depth fields = .ok entries → (entries.map entrySize).sum ≤ sizeOfFields fields
  | [], _, read => by
    obtain rfl := Except.ok.inj read
    exact Nat.le_refl 0
  | (key, node) :: rest, fits, read => by
    rw [numbersFitInFields, Bool.and_eq_true] at fits
    obtain ⟨name, first, others, rfl, named, readFirst, readOthers⟩ := exists_of_readFields_cons read
    have ofFirst := Node.size_le_of_read node fits.1 readFirst
    have ofOthers := sum_le_of_readFields rest fits.2 readOthers
    simp only [List.map_cons, List.sum_cons, sizeOfFields, named, textSize_ok, entrySize]
    omega

end

/-! ## Whole numbers -/

theorem utf8Size_of_isDigit {c : Char} (digit : c.isDigit = true) : c.utf8Size = 1 := by
  have bounds := Char.isDigit_iff_toNat.mp digit
  have last : '9'.toNat = 57 := rfl
  have small : c.val ≤ UInt32.ofNatLT 127 (by decide) := by
    rw [UInt32.le_iff_toNat_le]
    change c.toNat ≤ 127
    omega
  exact if_pos small

theorem byteSize_of_isDigit {digits : List Char} (each : ∀ c ∈ digits, c.isDigit = true) :
    byteSize digits = digits.length := by
  induction digits with
  | nil => rfl
  | cons c rest inductionHypothesis =>
    have width := utf8Size_of_isDigit (each c List.mem_cons_self)
    have ofRest := inductionHypothesis fun d member => each d (List.mem_cons_of_mem _ member)
    rw [byteSize_cons, width, ofRest, List.length_cons, Nat.add_comm]

theorem byteSize_printNumber_whole {n : Nat} (negative : Bool) (sound : negative = true → 0 < n) :
    byteSize (printNumber (.whole (if negative then -(n : Int) else n))) =
      signSize negative + (Nat.toDigits 10 n).length := by
  have digits : byteSize (Nat.toDigits 10 n) = (Nat.toDigits 10 n).length :=
    byteSize_of_isDigit fun c member => Nat.isDigit_of_mem_toDigits (by decide) (by decide) member
  cases negative with
  | false =>
    have written : printNumber (.whole (n : Int)) = Nat.toDigits 10 n := Nat.toList_repr
    change byteSize (printNumber (.whole (n : Int))) = 0 + _
    rw [written, digits, Nat.zero_add]
  | true =>
    obtain ⟨less, rfl⟩ : ∃ less, n = less + 1 := ⟨n - 1, by have := sound rfl; omega⟩
    have written : printNumber (.whole (-((less + 1 : Nat) : Int))) =
        '-' :: Nat.toDigits 10 (less + 1) := by
      change ("-" ++ Nat.repr (less + 1)).toList = _
      rw [String.toList_append, Nat.toList_repr]
      rfl
    change byteSize (printNumber (.whole (-((less + 1 : Nat) : Int)))) = 1 + _
    rw [written, byteSize_cons, digits]
    rfl

/-- Digits that stay below the limit are all taken. -/
theorem appendDigits_fst_lt (limit : Nat) {value : Nat} {digits : List Char}
    (each : ∀ c ∈ digits, c.isDigit = true) (all : (appendDigits limit value digits).2 = 0) :
    (appendDigits limit value digits).1 < (value + 1) * 10 ^ digits.length := by
  induction digits generalizing value with
  | nil => simp [appendDigits]
  | cons c rest inductionHypothesis =>
    have digit := Char.isDigit_iff_toNat.mp (each c List.mem_cons_self)
    have last : '9'.toNat = 57 := rfl
    rw [appendDigits] at all ⊢
    by_cases exceeds : limit < 10 * value + (c.toNat - 48)
    · simp only [exceeds, if_true] at all
      contradiction
    · simp only [exceeds, if_false] at all ⊢
      have ofRest := inductionHypothesis
        (fun d member => each d (List.mem_cons_of_mem _ member)) all
      refine Nat.lt_of_lt_of_le ofRest ?_
      rw [List.length_cons, Nat.pow_succ', ← Nat.mul_assoc]
      exact Nat.mul_le_mul_right _ (by omega)

/-- A numeral that is read as a whole number has its digits and its sign only. -/
theorem Numeral.exists_of_value_whole {numeral : Numeral} {offset : Nat} {value : Int}
    (whole : numeral.value offset = .ok (.whole value)) :
    ∃ n : Nat, value = (if numeral.negative then -(n : Int) else n) ∧
      (numeral.negative = true → 0 < n) ∧
      appendDigits significandLimit 0 numeral.whole = (n, 0) := by
  rw [Numeral.value] at whole
  simp only at whole
  split at whole
  · next plain =>
    rw [Bool.and_eq_true, beq_iff_eq] at plain
    generalize appendDigits significandLimit 0 numeral.whole = taken at whole plain
    obtain ⟨n, dropped⟩ := taken
    obtain rfl : dropped = 0 := plain.2
    cases negative : numeral.negative with
    | false =>
      rw [negative] at whole
      exact ⟨n, (Number.whole.inj (Except.ok.inj whole)).symm, nofun, rfl⟩
    | true =>
      rw [negative] at whole
      simp only [Bool.not_true, Bool.false_eq_true, if_false] at whole
      split at whole
      · exact nomatch Except.ok.inj whole
      · next small =>
        refine ⟨n, (Number.whole.inj (Except.ok.inj whole)).symm, fun _ => ?_, rfl⟩
        rw [Bool.or_eq_true, not_or, beq_iff_eq] at small
        exact Nat.pos_of_ne_zero small.1
  · -- a fraction, an exponent or a digit too many makes a real number
    split at whole
    · split at whole <;> simp at whole
    · split at whole
      · split at whole <;> simp at whole
      · split at whole <;> simp at whole

/-- A whole number that a numeral spells out is written with as many bytes at most. -/
theorem Numeral.byteSize_whole_le {numeral : Numeral} {offset : Nat} {value : Int}
    (whole : numeral.value offset = .ok (.whole value)) (some : numeral.whole ≠ [])
    (digits : ∀ c ∈ numeral.whole, c.isDigit = true) :
    byteSize (printNumber (.whole value)) ≤ numeral.size := by
  obtain ⟨n, rfl, sound, taken⟩ := numeral.exists_of_value_whole whole
  have below := @appendDigits_fst_lt significandLimit 0 numeral.whole digits (by rw [taken])
  rw [taken, Nat.zero_add, Nat.one_mul] at below
  have count : (Nat.toDigits 10 n).length ≤ numeral.whole.length :=
    (Nat.length_toDigits_le_iff (by decide) (List.length_pos_of_ne_nil some)).mpr below
  rw [byteSize_printNumber_whole numeral.negative sound, Numeral.size]
  omega

theorem Numeral.fits_of_whole {numeral : Numeral} {place : Cursor} {value : Int}
    (whole : numeral.value place.offset = .ok (.whole value)) (some : numeral.whole ≠ [])
    (digits : ∀ c ∈ numeral.whole, c.isDigit = true) : numeral.fits place .number = true := by
  rw [Numeral.fits, whole]
  exact decide_eq_true (Numeral.byteSize_whole_le whole some digits)

/-! ## Values of a type -/

/-- What is read from a node that meets a condition is written in the bytes of the node at most. -/
def Codec.WritesWithin (codec : Codec α) (fits : Node → Bool) : Prop :=
  ∀ depth node a, fits node = true → codec.read depth node = .ok a →
    (codec.write a).size ≤ node.size

theorem Codec.text_writesWithin (fits : Node → Bool) : Codec.text.WritesWithin fits := by
  intro depth node a _ read
  cases node with
  | string text after =>
    obtain ⟨known, rfl, rfl⟩ := exists_of_map_eq_ok read
    exact Nat.le_refl _
  | _ => contradiction

/-- The condition holds of the items of an array. -/
def Node.itemsFit (fits : Node → Bool) : Node → Bool
  | .array _ items _ => items.all fits
  | _ => true

/-- The condition holds of the fields of an object that have a key. -/
def Node.fieldsFit (fits : String → Node → Bool) : Node → Bool
  | .object _ fields _ => fields.all fun field =>
    match field.1.text with
    | .ok name => fits (String.ofList name) field.2
    | .error _ => true
  | _ => true

theorem Node.fits_of_fieldsFit {fits : String → Node → Bool} {start : Cursor}
    {fields : List (Key × Node)} {ending : Ending}
    (allFit : (Node.object start fields ending).fieldsFit fits = true) {field : Key × Node}
    (member : field ∈ fields) {name : List Char} (named : field.1.text = .ok name) :
    fits (String.ofList name) field.2 = true := by
  have fit := List.all_eq_true.mp allFit field member
  simp only [named] at fit
  exact fit

namespace Codec.WritesWithin

variable {codec : Codec α} {depth : Nat}

theorem sum_items {fits : Node → Bool} (within : codec.WritesWithin fits) {items : List Node}
    {values : List α} (allFit : ∀ item ∈ items, fits item = true)
    (read : List.Forall₂ (fun item a => codec.read depth item = .ok a) items values) :
    ((values.map codec.write).map fun value => value.size + 1).sum ≤ sizeOfItems items := by
  induction read with
  | nil => exact Nat.le_refl 0
  | cons first rest inductionHypothesis =>
    have ofFirst := within _ _ _ (allFit _ List.mem_cons_self) first
    have ofRest := inductionHypothesis fun item member =>
      allFit item (List.mem_cons_of_mem _ member)
    simp only [List.map_cons, List.sum_cons, sizeOfItems]
    omega

theorem list {fits : Node → Bool} (within : codec.WritesWithin fits) :
    codec.list.WritesWithin (Node.itemsFit fits) := by
  intro depth node values allFit read
  obtain ⟨start, items, ending, rfl, each⟩ := Codec.exists_of_read_list read
  have inside := within.sum_items (List.all_eq_true.mp allFit) each
  change (Json.array (values.map codec.write)).size ≤ _
  rw [size_array, Node.size]
  omega

theorem sum_fields {fits : Node → Bool} (within : codec.WritesWithin fits)
    {fields : List (Key × Node)} {entries : List (String × α)}
    (allFit : ∀ field ∈ fields, ∀ name, field.1.text = .ok name → fits field.2 = true)
    (read : List.Forall₂ (codec.ReadsField depth) fields entries) :
    (entries.map fun entry => entrySize (entry.1, codec.write entry.2)).sum ≤
      sizeOfFields fields := by
  induction read with
  | nil => exact Nat.le_refl 0
  | cons first rest inductionHypothesis =>
    obtain ⟨⟨name, named, same⟩, decoded⟩ := first
    have ofFirst := within _ _ _ (allFit _ List.mem_cons_self name named) decoded
    have ofRest := inductionHypothesis fun field member =>
      allFit field (List.mem_cons_of_mem _ member)
    simp only [List.map_cons, List.sum_cons, sizeOfFields, named, textSize_ok, same, entrySize]
    simp only [entrySize] at ofRest
    omega

theorem map {fits : Node → Bool} (within : codec.WritesWithin fits) :
    codec.map.WritesWithin (Node.fieldsFit fun _ => fits) := by
  intro depth node map allFit read
  obtain ⟨start, fields, ending, entries, rfl, each, same⟩ := Codec.exists_of_read_map read
  have inside := within.sum_fields
    (fun field member name named => Node.fits_of_fieldsFit allFit member named) each
  have merged :=
    sum_mergeFields_le (fun entry => entrySize (entry.1, codec.write entry.2)) entries
  change (Json.object (map.entries.map fun entry => (entry.1, codec.write entry.2))).size ≤ _
  rw [size_object, Node.size, same, List.map_map]
  simp only [Function.comp_def]
  omega

end Codec.WritesWithin

/-! ## Structures -/

variable {σ : Type}

/-- The bytes of the field of a structure, if it is written. -/
def Field.size (field : Field σ) (value : σ) : Nat :=
  match field.write value with
  | some written => entrySize (field.name, written)
  | none => 0

/-- What is read into the field from a node that meets a condition is written in the bytes of the
node at most. -/
def Field.WritesWithin (field : Field σ) (fits : Node → Bool) : Prop :=
  ∀ depth node before after written, fits node = true → field.read depth node before = .ok after →
    field.write after = some written → written.size ≤ node.size

theorem Field.plain_writesWithin (name : String) {codec : Codec α} {fits : Node → Bool}
    (within : codec.WritesWithin fits) {get : σ → α} {set : σ → α → σ}
    (stored : ∀ value a, get (set value a) = a) :
    (Field.plain name codec get set).WritesWithin fits := by
  intro depth node before after written fit read same
  obtain ⟨a, decoded, rfl⟩ := exists_of_map_eq_ok read
  obtain rfl := Option.some.inj same
  rw [stored]
  exact within depth node a fit decoded

namespace Shape

variable {shape : Shape σ} {before after : σ} {seen : List String}

/-- The bytes of the fields of a structure that have been read. -/
def sizeOfSeen (seen : List String) (value : σ) (fields : List (Field σ)) : Nat :=
  (fields.map fun field => if field.name ∈ seen then field.size value else 0).sum

theorem sizeOfSeen_eq_of_complete {fields : List (Field σ)}
    (complete : ∀ field ∈ fields, field.name ∈ seen) :
    sizeOfSeen seen after fields = (fields.map (·.size after)).sum := by
  unfold sizeOfSeen
  rw [List.map_congr_left fun field member => if_pos (complete field member)]

/-- Reading one more field adds the bytes of this field at most, since the others stay as they
are. -/
theorem sizeOfSeen_cons_le {name : String} {bound : Nat} {fields : List (Field σ)}
    (distinct : (fields.map Field.name).Nodup)
    (ofName : ∀ field ∈ fields, field.name = name → field.size after ≤ bound)
    (others : ∀ field ∈ fields, field.name ≠ name → field.size after = field.size before) :
    sizeOfSeen (name :: seen) after fields ≤ sizeOfSeen seen before fields + bound := by
  induction fields with
  | nil => exact Nat.zero_le _
  | cons field rest inductionHypothesis =>
    rw [List.map_cons, List.nodup_cons] at distinct
    by_cases same : field.name = name
    · have ofRest : sizeOfSeen (name :: seen) after rest = sizeOfSeen seen before rest := by
        unfold sizeOfSeen
        refine congrArg List.sum (List.map_congr_left fun other member => ?_)
        have apart : other.name ≠ name := by
          rintro rfl
          exact distinct.1 (same ▸ List.mem_map_of_mem member)
        rw [others other (List.mem_cons_of_mem _ member) apart]
        simp only [List.mem_cons, apart, false_or]
      have ofField := ofName field List.mem_cons_self same
      simp only [sizeOfSeen, List.map_cons, List.sum_cons, same, List.mem_cons_self, if_true]
        at ofRest ⊢
      omega
    · have ofRest := inductionHypothesis distinct.2
        (fun other member => ofName other (List.mem_cons_of_mem _ member))
        fun other member => others other (List.mem_cons_of_mem _ member)
      have ofField := others field List.mem_cons_self same
      simp only [sizeOfSeen, List.map_cons, List.sum_cons, List.mem_cons, same, false_or, ofField]
        at ofRest ⊢
      omega

/-- A field that is read from a node takes the bytes of the node and of its name at most. -/
theorem size_le_of_read {fits : String → Node → Bool} {field : Field σ} {depth : Nat} {node : Node}
    (within : field.WritesWithin (fits field.name)) (fit : fits field.name node = true)
    (read : field.read depth node before = .ok after) :
    field.size after ≤ byteSize (printString field.name) + 1 + node.size + 1 := by
  unfold Field.size
  split
  · next written same =>
    have size := within depth node before after written fit read same
    simp only [entrySize]
    omega
  · exact Nat.zero_le _

/-- A name that stands among the entries of an object stands in the rest of them, unless it is the
first one. -/
theorem first_or_rest {key : Key} {node : Node} {rest : List (Key × Node)} {text : List Char}
    {name : String} (named : key.text = .ok text)
    (found : ∃ entry ∈ (key, node) :: rest, entry.1.text = .ok name.toList) :
    name = String.ofList text ∨ ∃ entry ∈ rest, entry.1.text = .ok name.toList := by
  obtain ⟨entry, member, entryNamed⟩ := found
  rcases List.mem_cons.mp member with rfl | later
  · obtain rfl := Except.ok.inj (named.symm.trans entryNamed)
    exact .inl String.ofList_toList.symm
  · exact .inr ⟨entry, later, entryNamed⟩

/-- A structure that is read from the fields of an object is written in the bytes of these fields at
most, if the fields that may be left out are there too. -/
theorem sum_size_le_of_readObject (distinct : (shape.fields.map Field.name).Nodup)
    (apart : ∀ field ∈ shape.fields, shape.Keeps field.name field.write)
    {fits : String → Node → Bool}
    (within : ∀ field ∈ shape.fields, field.WritesWithin (fits field.name)) {depth : Nat}
    {ending : Ending} {entries : List (Key × Node)}
    (allFit : ∀ entry ∈ entries, ∀ name, entry.1.text = .ok name →
      fits (String.ofList name) entry.2 = true)
    (there : ∀ field ∈ shape.fields, field.required = false →
      field.name ∈ seen ∨ ∃ entry ∈ entries, entry.1.text = .ok field.name.toList)
    (read : shape.readObject depth ending seen before entries = .ok after) :
    (shape.fields.map (·.size after)).sum ≤
      sizeOfSeen seen before shape.fields + sizeOfFields entries := by
  induction entries generalizing seen before with
  | nil =>
    obtain ⟨rfl, requiredSeen⟩ := complete_of_readObject_nil read
    have complete : ∀ field ∈ shape.fields, field.name ∈ seen := by
      intro field member
      cases required : field.required with
      | true => exact requiredSeen field member required
      | false =>
        rcases there field member required with old | ⟨entry, absurdly, _⟩
        · exact old
        · exact absurd absurdly List.not_mem_nil
    rw [sizeOfSeen_eq_of_complete complete]
    exact Nat.le_add_right _ _
  | cons entry rest inductionHypothesis =>
    obtain ⟨key, node⟩ := entry
    have restFit : ∀ entry ∈ rest, ∀ name, entry.1.text = .ok name →
        fits (String.ofList name) entry.2 = true :=
      fun entry member => allFit entry (List.mem_cons_of_mem _ member)
    obtain ⟨text, named, cases⟩ := readObject_cons_cases read
    rw [sizeOfFields, named, textSize_ok]
    rcases cases with ⟨unknown, read⟩ | ⟨field, middle, found, _, fieldRead, read⟩
    · have ofRest := inductionHypothesis restFit (fun field member required =>
        (there field member required).imp_right fun found => (first_or_rest named found).resolve_left
          (name_ne_of_field?_none unknown member)) read
      omega
    · have member := mem_of_field? found
      have fieldName := name_of_field? found
      have fit := allFit (key, node) List.mem_cons_self text named
      rw [← fieldName] at fit ⊢
      have ofField := size_le_of_read (within field member) fit fieldRead
      have others : ∀ other ∈ shape.fields, other.name ≠ field.name →
          other.size middle = other.size before := by
        intro other otherMember different
        unfold Field.size
        rw [apart other otherMember field member different.symm depth node before middle fieldRead]
      have ofName : ∀ other ∈ shape.fields, other.name = field.name →
          other.size middle ≤ byteSize (printString field.name) + 1 + node.size + 1 := by
        intro other otherMember same
        obtain rfl := List.inj_on_of_nodup_map distinct otherMember member same
        exact ofField
      have onTop : sizeOfSeen (field.name :: seen) middle shape.fields ≤
          sizeOfSeen seen before shape.fields + _ := sizeOfSeen_cons_le distinct ofName others
      have ofRest := inductionHypothesis restFit (fun other otherMember required => by
        rcases there other otherMember required with old | found
        · exact .inl (List.mem_cons_of_mem _ old)
        · refine (first_or_rest named found).imp_left fun same => ?_
          rw [same, ← fieldName]
          exact List.mem_cons_self) read
      omega

/-- The fields that may be left out are all there. -/
def namesAll (shape : Shape σ) : Node → Bool
  | .object _ fields _ => shape.fields.all fun field =>
    field.required || fields.any fun entry =>
      match entry.1.text with
      | .ok name => name == field.name.toList
      | .error _ => false
  | _ => false

theorem size_write (shape : Shape σ) (value : σ) :
    (shape.codec.write value).size = 2 + ((shape.fields.map (·.size value)).sum - 1) := by
  have each : ∀ fields : List (Field σ),
      ((fields.filterMap fun field => (field.write value).map fun written =>
        (field.name, written)).map entrySize).sum = (fields.map (·.size value)).sum := by
    intro fields
    induction fields with
    | nil => rfl
    | cons field rest inductionHypothesis =>
      rw [List.map_cons, List.sum_cons, ← inductionHypothesis, Field.size]
      cases written : field.write value with
      | none => simp [written]
      | some value => simp [written]
  change (Json.object _).size = _
  rw [size_object, each]

theorem codec_writesWithin (distinct : (shape.fields.map Field.name).Nodup)
    (apart : ∀ field ∈ shape.fields, shape.Keeps field.name field.write)
    {fits : String → Node → Bool}
    (within : ∀ field ∈ shape.fields, field.WritesWithin (fits field.name)) :
    shape.codec.WritesWithin fun node => shape.namesAll node && node.fieldsFit fits := by
  intro depth node value fit read
  rw [Bool.and_eq_true] at fit
  obtain ⟨names, allFit⟩ := fit
  cases node with
  | object start entries ending =>
    simp only [codec, readFields] at read
    obtain ⟨inner, _, read⟩ := exists_of_bind_eq_ok read
    have there : ∀ field ∈ shape.fields, field.required = false →
        field.name ∈ [] ∨ ∃ entry ∈ entries, entry.1.text = .ok field.name.toList := by
      intro field member required
      have named := List.all_eq_true.mp names field member
      rw [required, Bool.false_or, List.any_eq_true] at named
      obtain ⟨entry, entryMember, same⟩ := named
      refine .inr ⟨entry, entryMember, ?_⟩
      split at same
      · next name spelled => rw [spelled, beq_iff_eq.mp same]
      · contradiction
    have inside := sum_size_le_of_readObject distinct apart within
      (fun entry member name named => Node.fits_of_fieldsFit allFit member named) there read
    have nothing : sizeOfSeen [] shape.blank shape.fields = 0 := by
      simp [sizeOfSeen]
    rw [size_write, Node.size]
    omega
  | _ => contradiction

end Shape

end FlatLiquid.Json
