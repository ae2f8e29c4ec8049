import ResourceLanguage.Proofs.Text.Number
import ResourceLanguage.Proofs.Text.Replacement
import ResourceLanguage.Rule

/-!
Messages. The arguments of a message are put in one after the other, and what one of them has put in
is searched for the placeholders of the next. The message to compare with has all its arguments put
in at once. The two agree as long as no text that an argument has brought along is taken for the
placeholder of a later one, which cannot happen where there are no stray opening braces.
-/

namespace ResourceLanguage

open ResourceLanguage.Text

/-! ### Placeholders -/

theorem placeholder_eq (index : Nat) :
    placeholder index = '{' :: (Nat.toDigits 10 index ++ ['}']) := by
  rw [placeholder, toList_toString, List.cons_append]

/-- A placeholder has its opening brace only in front. -/
theorem brace_notMem_placeholder (index : Nat) : '{' ∉ Nat.toDigits 10 index ++ ['}'] := by
  rw [List.mem_append, not_or]
  refine ⟨fun h => ?_, by decide⟩
  exact absurd (isDigit_of_mem_toDigits h) (by decide)

theorem placeholder_standsApart (index : Nat) : StandsApart (placeholder index) :=
  ⟨'{', Nat.toDigits 10 index ++ ['}'], placeholder_eq index, brace_notMem_placeholder index⟩

def leadingPlaceholder? (text : List Char) : Option Nat :=
  let index := leadingNumber (text.drop 1)
  if (placeholder index).isPrefixOf text then some index else none

theorem leadingPlaceholder?_eq_some_iff {text : List Char} {index : Nat} :
    leadingPlaceholder? text = some index ↔ placeholder index <+: text := by
  rw [leadingPlaceholder?, Option.ite_none_right_eq_some, List.isPrefixOf_iff_prefix]
  constructor
  · rintro ⟨h, heq⟩
    rwa [Option.some.inj heq] at h
  · rintro ⟨rest, rfl⟩
    have hindex : leadingNumber ((placeholder index ++ rest).drop 1) = index := by
      rw [placeholder_eq, List.cons_append, List.drop_one, List.tail_cons, List.append_assoc]
      exact leadingNumber_toDigits_append (by simp) index
    rw [hindex]
    exact ⟨List.prefix_append _ _, rfl⟩

theorem isPrefixOf_placeholder_append (index index' : Nat) (rest : List Char) :
    (placeholder index).isPrefixOf (placeholder index' ++ rest) = (index' == index) := by
  have hleading : leadingPlaceholder? (placeholder index' ++ rest) = some index' :=
    leadingPlaceholder?_eq_some_iff.mpr (List.prefix_append _ _)
  rw [Bool.eq_iff_iff, List.isPrefixOf_iff_prefix, ← leadingPlaceholder?_eq_some_iff, hleading,
    Option.some_inj, beq_iff_eq]

theorem occurrences_placeholder_append (index index' : Nat) (rest : List Char) :
    occurrences (placeholder index) (placeholder index' ++ rest) =
      (if index' == index then 1 else 0) + occurrences (placeholder index) rest := by
  have hfirst := isPrefixOf_placeholder_append index index' rest
  rw [placeholder_eq index', List.cons_append] at hfirst ⊢
  rw [occurrences_cons, hfirst]
  rw [placeholder_eq index, occurrences_of_notMem (brace_notMem_placeholder index')]

/-! ### All arguments at once -/

/-- A message format is made of characters and of places for arguments. -/
inductive MessagePart where
  | char (c : Char)
  | argument (index : Nat)
  deriving DecidableEq, Repr

def messageParts : List Char → List MessagePart
  | [] => []
  | c :: cs =>
      match leadingPlaceholder? (c :: cs) with
      | some index => .argument index :: messageParts (cs.drop ((placeholder index).length - 1))
      | none => .char c :: messageParts cs
termination_by cs => cs.length
decreasing_by
  all_goals simp only [List.length_cons, List.length_drop]
  all_goals omega

/-- What a part becomes. A place for which there is no argument stays as it is written. -/
def MessagePart.fill (args : List String) : MessagePart → List Char
  | .char c => [c]
  | .argument index => (args[index]?.map String.toList).getD (placeholder index)

/-- A message format with every argument in the places that the format has for it. -/
def substitute (format : String) (args : List String) : String :=
  String.ofList ((messageParts format.toList).flatMap (MessagePart.fill args))

theorem messageParts_placeholder_append (index : Nat) (rest : List Char) :
    messageParts (placeholder index ++ rest) = .argument index :: messageParts rest := by
  have hleading : leadingPlaceholder? (placeholder index ++ rest) = some index :=
    leadingPlaceholder?_eq_some_iff.mpr (List.prefix_append _ _)
  rw [placeholder_eq, List.cons_append] at hleading ⊢
  rw [messageParts, hleading]
  simp [placeholder_eq]

theorem messageParts_cons {c : Char} {cs : List Char}
    (h : leadingPlaceholder? (c :: cs) = none) :
    messageParts (c :: cs) = .char c :: messageParts cs := by
  rw [messageParts, h]

/-- A format is read as its parts are: it begins with a placeholder, or with a character at which
none begins. -/
@[elab_as_elim]
theorem format_induction {motive : List Char → Prop}
    (nil : motive [])
    (argument : ∀ index rest, motive rest → motive (placeholder index ++ rest))
    (char : ∀ c cs, leadingPlaceholder? (c :: cs) = none → motive cs → motive (c :: cs))
    (format : List Char) : motive format := by
  fun_induction messageParts format with
  | case1 => exact nil
  | case2 c cs index hleading ih =>
      obtain ⟨rest, hrest⟩ := leadingPlaceholder?_eq_some_iff.mp hleading
      rw [← hrest]
      refine argument index rest ?_
      rw [placeholder_eq, List.cons_append, List.cons.injEq] at hrest
      simpa [placeholder_eq, ← hrest.2] using ih
  | case3 c cs hleading ih => exact char c cs hleading ih

/-- Without arguments a format is its own message. -/
theorem flatMap_fill_nil (format : List Char) :
    (messageParts format).flatMap (MessagePart.fill []) = format := by
  induction format using format_induction with
  | nil => simp [messageParts]
  | argument index rest ih =>
      rw [messageParts_placeholder_append, List.flatMap_cons, ih]
      rfl
  | char c cs hleading ih =>
      rw [messageParts_cons hleading, List.flatMap_cons, ih]
      rfl

/-- The places for an argument are the occurrences of its placeholder in the format. -/
theorem count_messageParts (index : Nat) (format : List Char) :
    (messageParts format).count (.argument index) = occurrences (placeholder index) format := by
  induction format using format_induction with
  | nil => simp [messageParts, occurrences]
  | argument index' rest ih =>
      rw [messageParts_placeholder_append, List.count_cons, ih, occurrences_placeholder_append,
        Nat.add_comm]
      simp
  | char c cs hleading ih =>
      have hfirst : (placeholder index).isPrefixOf (c :: cs) = false := by
        rw [Bool.eq_false_iff, ne_eq, List.isPrefixOf_iff_prefix,
          ← leadingPlaceholder?_eq_some_iff, hleading]
        simp
      rw [messageParts_cons hleading, List.count_cons, ih, occurrences, hfirst]
      simp

/-! ### One argument after the other -/

/-- How the parts of a format are filled before and after the turn of one argument: its own places
are filled in, and all other parts stay as they are. -/
structure FillsIn (index : Nat) (arg : List Char) (before after : MessagePart → List Char) :
    Prop where
  before_argument : before (.argument index) = placeholder index
  after_argument : after (.argument index) = arg
  others : ∀ part, part ≠ .argument index → after part = before part

namespace FillsIn

variable {index : Nat} {arg : List Char} {before after : MessagePart → List Char}
  (h : FillsIn index arg before after)
include h

theorem length_flatMap (parts : List MessagePart) :
    (parts.flatMap after).length + parts.count (.argument index) * (placeholder index).length =
      (parts.flatMap before).length + parts.count (.argument index) * arg.length := by
  induction parts with
  | nil => simp
  | cons part parts ih =>
      rw [List.flatMap_cons, List.flatMap_cons, List.length_append, List.length_append]
      by_cases hpart : part = .argument index
      · subst hpart
        rw [h.before_argument, h.after_argument, List.count_cons_self, Nat.add_mul, Nat.add_mul]
        omega
      · rw [h.others part hpart, List.count_cons_of_ne hpart]
        omega

/-- If an argument is put in place of more than its own places and the text is still as long as it
should be, the argument is as long as its placeholder, or nothing else was found. -/
theorem length_replaceAll_eq (front : List Char) (parts : List MessagePart)
    (hcount : parts.count (.argument index) ≤
      occurrences (placeholder index) (parts.flatMap before))
    (hlength : (replaceAll (placeholder index) arg front).length +
        (replaceAll (placeholder index) arg (parts.flatMap before)).length =
      front.length + (parts.flatMap after).length) :
    (replaceAll (placeholder index) arg front).length = front.length := by
  have hfront := (placeholder_standsApart index).length_replaceAll arg front
  have hbefore := (placeholder_standsApart index).length_replaceAll arg (parts.flatMap before)
  have hafter := h.length_flatMap parts
  obtain ⟨extra, hextra⟩ := Nat.exists_eq_add_of_le hcount
  rw [hextra, Nat.add_mul, Nat.add_mul] at hbefore
  have hmul : (occurrences (placeholder index) front + extra) * (placeholder index).length =
      (occurrences (placeholder index) front + extra) * arg.length := by
    rw [Nat.add_mul, Nat.add_mul]
    omega
  rcases Nat.eq_zero_or_pos (occurrences (placeholder index) front + extra) with hnone | hsome
  · rw [Nat.eq_zero_of_add_eq_zero_right hnone] at hfront
    simpa using hfront
  · rw [Nat.eq_of_mul_eq_mul_left hsome hmul] at hfront
    omega

theorem count_le_occurrences (front : List Char) (parts : List MessagePart) :
    parts.count (.argument index) ≤
      occurrences (placeholder index) (front ++ parts.flatMap before) := by
  induction parts generalizing front with
  | nil => simp
  | cons part parts ih =>
      rw [List.flatMap_cons]
      by_cases hpart : part = .argument index
      · subst hpart
        have hrest := ih []
        rw [List.nil_append] at hrest
        rw [h.before_argument, (placeholder_standsApart index).occurrences_append,
          List.count_cons_self]
        omega
      · rw [List.count_cons_of_ne hpart, ← List.append_assoc]
        exact ih (front ++ before part)

/-- Replacing the placeholder fills in the argument and nothing else, unless the placeholder is
found also where the format has no place for it. The text in front is what the parts read so far
have become. -/
theorem replaceAll_iff (front : List Char) (parts : List MessagePart) :
    replaceAll (placeholder index) arg (front ++ parts.flatMap before) =
        front ++ parts.flatMap after ↔
      arg = placeholder index ∨
        occurrences (placeholder index) (front ++ parts.flatMap before) =
          parts.count (.argument index) := by
  have hapart := placeholder_standsApart index
  induction parts generalizing front with
  | nil => simpa using hapart.replaceAll_eq_self_iff arg front
  | cons part parts ih =>
      rw [List.flatMap_cons, List.flatMap_cons]
      by_cases hpart : part = .argument index
      · subst hpart
        have hrest := ih []
        have hcount := h.count_le_occurrences [] parts
        rw [List.nil_append] at hcount
        rw [List.nil_append, List.nil_append] at hrest
        rw [h.before_argument, h.after_argument, hapart.replaceAll_append,
          hapart.occurrences_append, List.count_cons_self]
        constructor
        · intro heq
          have hlength := congrArg List.length heq
          simp only [List.length_append] at hlength
          obtain ⟨hfront, hback⟩ := List.append_inj heq
            (h.length_replaceAll_eq front parts hcount (by omega))
          rcases (hapart.replaceAll_eq_self_iff arg front).mp hfront with harg | hfront
          · exact .inl harg
          · refine (hrest.mp (List.append_cancel_left hback)).imp_right fun hback => ?_
            omega
        · rintro (harg | hnone)
          · rw [(hapart.replaceAll_eq_self_iff arg front).mpr (.inl harg), hrest.mpr (.inl harg)]
          · rw [(hapart.replaceAll_eq_self_iff arg front).mpr (.inr (by omega)),
              hrest.mpr (.inr (by omega))]
      · rw [List.count_cons_of_ne hpart, h.others part hpart, ← List.append_assoc,
          ← List.append_assoc]
        exact ih (front ++ before part)

end FillsIn

/-- The turn of an argument fills in its places. -/
theorem fillsIn_concat (args : List String) (last : String) :
    FillsIn args.length last.toList (MessagePart.fill args)
      (MessagePart.fill (args ++ [last])) where
  before_argument := by
    rw [MessagePart.fill, List.getElem?_eq_none (Nat.le_refl args.length)]
    rfl
  after_argument := by
    rw [MessagePart.fill, List.getElem?_concat_length]
    rfl
  others part hpart := by
    cases part with
    | char c => rfl
    | argument other =>
        have hne : other ≠ args.length := fun heq => hpart (congrArg _ heq)
        have hsame : (args ++ [last])[other]? = args[other]? := by
          rw [List.getElem?_append]
          grind
        rw [MessagePart.fill, MessagePart.fill, hsame]

theorem formatMessage_nil (format : String) : formatMessage format [] = format := by
  rw [formatMessage, List.zipIdx_nil, List.foldl_nil, String.ofList_toList]

theorem toList_formatMessage_concat (format : String) (args : List String) (last : String) :
    (formatMessage format (args ++ [last])).toList =
      replaceAll (placeholder args.length) last.toList (formatMessage format args).toList := by
  rw [formatMessage, formatMessage, List.zipIdx_append, List.foldl_append, String.toList_ofList,
    String.toList_ofList]
  simp

theorem substitute_nil (format : String) : substitute format [] = format := by
  rw [substitute, flatMap_fill_nil, String.ofList_toList]

/-- The turn of an argument leads from one message with some arguments in it to the next, unless
what is taken for its placeholder comes from the arguments before it. -/
theorem formatMessage_concat_iff {format : String} {args : List String}
    (h : formatMessage format args = substitute format args) (last : String) :
    formatMessage format (args ++ [last]) = substitute format (args ++ [last]) ↔
      last.toList = placeholder args.length ∨
        occurrences (placeholder args.length) (substitute format args).toList =
          occurrences (placeholder args.length) format.toList := by
  rw [← String.toList_inj, toList_formatMessage_concat, h, substitute, substitute,
    String.toList_ofList, String.toList_ofList, ← count_messageParts args.length format.toList]
  exact (fillsIn_concat args last).replaceAll_iff [] (messageParts format.toList)

/-- No turn finds the placeholder of its argument where the format has no place for it; an argument
that is its own placeholder may be put in anywhere. -/
def TurnsApart (format : String) (args : List String) : Prop :=
  ∀ index (h : index < args.length), args[index].toList = placeholder index ∨
    occurrences (placeholder index) (substitute format (args.take index)).toList =
      occurrences (placeholder index) format.toList

instance (format : String) (args : List String) : Decidable (TurnsApart format args) :=
  inferInstanceAs (Decidable (∀ index (h : index < args.length),
    args[index].toList = placeholder index ∨
      occurrences (placeholder index) (substitute format (args.take index)).toList =
        occurrences (placeholder index) format.toList))

theorem TurnsApart.of_append {format : String} {front back : List String}
    (h : TurnsApart format (front ++ back)) : TurnsApart format front := by
  intro index hindex
  have hturn := h index (by rw [List.length_append]; omega)
  rwa [List.getElem_append_left hindex, List.take_append_of_le_length (Nat.le_of_lt hindex)]
    at hturn

theorem turnsApart_concat_iff (format : String) (args : List String) (last : String) :
    TurnsApart format (args ++ [last]) ↔ TurnsApart format args ∧
      (last.toList = placeholder args.length ∨
        occurrences (placeholder args.length) (substitute format args).toList =
          occurrences (placeholder args.length) format.toList) := by
  constructor
  · intro h
    have hturn := h args.length (by simp)
    rw [List.getElem_concat_length rfl, List.take_left] at hturn
    exact ⟨h.of_append, hturn⟩
  · rintro ⟨h, hlast⟩ index hindex
    rcases Nat.lt_or_ge index args.length with hlt | hge
    · rw [List.getElem_append_left hlt, List.take_append_of_le_length (Nat.le_of_lt hlt)]
      exact h index hlt
    · obtain rfl : index = args.length := by
        rw [List.length_append, List.length_singleton] at hindex
        omega
      rw [List.getElem_concat_length rfl, List.take_left]
      exact hlast

theorem TurnsApart.formatMessage_eq {format : String} {args : List String}
    (h : TurnsApart format args) : formatMessage format args = substitute format args := by
  induction args using List.reverseRecOn with
  | nil => rw [formatMessage_nil, substitute_nil]
  | append_singleton args last ih =>
      obtain ⟨hargs, hlast⟩ := (turnsApart_concat_iff format args last).mp h
      exact (formatMessage_concat_iff (ih hargs) last).mpr hlast

theorem turnsApart_of_formatMessage_take {format : String} {args : List String}
    (h : ∀ count ≤ args.length,
      formatMessage format (args.take count) = substitute format (args.take count)) :
    TurnsApart format args := by
  induction args using List.reverseRecOn with
  | nil => exact fun index hindex => absurd hindex (Nat.not_lt_zero index)
  | append_singleton args last ih =>
      have hargs := h args.length (by simp)
      have hlast := h (args ++ [last]).length (Nat.le_refl _)
      rw [List.take_left] at hargs
      rw [List.take_length] at hlast
      refine (turnsApart_concat_iff format args last).mpr
        ⟨ih fun count hcount => ?_, (formatMessage_concat_iff hargs last).mp hlast⟩
      have hfront := h count (by rw [List.length_append]; omega)
      rwa [List.take_append_of_le_length hcount] at hfront

/-- The first turn can only find what the format has. -/
theorem turnsApart_of_length_le_one (format : String) {args : List String}
    (h : args.length ≤ 1) : TurnsApart format args := by
  intro index hindex
  obtain rfl : index = 0 := by omega
  rw [List.take_zero, substitute_nil]
  exact .inr rfl

/-- Where the parts and the arguments bring no opening brace along, a later placeholder is found
only where it has its place. -/
theorem occurrences_flatMap_fill {index : Nat} {args : List String} (hindex : args.length ≤ index)
    (hargs : ∀ arg ∈ args, '{' ∉ arg.toList) {parts : List MessagePart}
    (hparts : .char '{' ∉ parts) :
    occurrences (placeholder index) (parts.flatMap (MessagePart.fill args)) =
      parts.count (.argument index) := by
  induction parts with
  | nil => rfl
  | cons part parts ih =>
      rw [List.mem_cons, not_or] at hparts
      rw [List.flatMap_cons, List.count_cons, ← ih hparts.2]
      cases part with
      | char c =>
          have hc : '{' ∉ [c] := by
            rw [List.mem_singleton]
            exact fun heq => hparts.1 (congrArg MessagePart.char heq)
          rw [placeholder_eq]
          exact occurrences_of_notMem hc _
      | argument other =>
          rw [MessagePart.fill]
          cases harg : args[other]? with
          | none =>
              rw [Option.map_none, Option.getD_none, occurrences_placeholder_append, Nat.add_comm]
              simp
          | some arg =>
              have hne : other ≠ index := by
                have hlt := (List.getElem?_eq_some_iff.mp harg).1
                omega
              rw [Option.map_some, Option.getD_some, placeholder_eq,
                occurrences_of_notMem (hargs arg (List.mem_of_getElem? harg))]
              simp [hne]

theorem turnsApart_of_notMem {format : String} {args : List String}
    (hformat : .char '{' ∉ messageParts format.toList)
    (hargs : ∀ arg ∈ args, '{' ∉ arg.toList) : TurnsApart format args := by
  intro index h
  right
  rw [substitute, String.toList_ofList, ← count_messageParts index format.toList]
  exact occurrences_flatMap_fill (List.length_take_le index args)
    (fun arg harg => hargs arg (List.mem_of_mem_take harg)) hformat

/-- Putting the arguments in one after the other gives, at every turn, the message with the
arguments so far put in at once, exactly when no turn finds its placeholder in what the arguments
before it have brought along. For the whole message this is enough. It is also needed if only the
last turn can go wrong, as with two arguments; with more, a turn may undo what one before it has
done. A single argument is always put in as it is, and so are any number of them without opening
braces, in a format that has none but those of its placeholders. -/
theorem formatMessage_eq_substitute_iff (format : String) (args : List String) :
    ((∀ count ≤ args.length,
        formatMessage format (args.take count) = substitute format (args.take count)) ↔
      TurnsApart format args) ∧
    (TurnsApart format args → formatMessage format args = substitute format args) ∧
    (TurnsApart format args.dropLast →
      (formatMessage format args = substitute format args ↔ TurnsApart format args)) ∧
    (args.length ≤ 1 → formatMessage format args = substitute format args) ∧
    (.char '{' ∉ messageParts format.toList → (∀ arg ∈ args, '{' ∉ arg.toList) →
      formatMessage format args = substitute format args) := by
  refine ⟨⟨fun hall => ?_, fun h count _ => ?_⟩, TurnsApart.formatMessage_eq, fun h => ?_,
    fun hone => (turnsApart_of_length_le_one format hone).formatMessage_eq,
    fun hformat hargs => (turnsApart_of_notMem hformat hargs).formatMessage_eq⟩
  · exact turnsApart_of_formatMessage_take hall
  · rw [← List.take_append_drop count args] at h
    exact h.of_append.formatMessage_eq
  · rcases List.eq_nil_or_concat args with rfl | ⟨front, last, rfl⟩
    · exact iff_of_true h.formatMessage_eq h
    · rw [List.concat_eq_append] at h ⊢
      rw [List.dropLast_concat] at h
      rw [turnsApart_concat_iff, formatMessage_concat_iff h.formatMessage_eq]
      exact (and_iff_right h).symm

/-- Two arguments with stray braces, and two without opening ones. -/
theorem formatMessage_eq_substitute_iff_twoNames :
    let format := "'\x7b0\x7d' and '\x7b1\x7d' and '\x7b0\x7d'"
    (TurnsApart format ["a\x7b", "b\x7d"] ∧
      formatMessage format ["a\x7b", "b\x7d"] = substitute format ["a\x7b", "b\x7d"]) ∧
    (.char '{' ∉ messageParts format.toList ∧ (∀ arg ∈ ["a", "b\x7d"], '{' ∉ arg.toList) ∧
      formatMessage format ["a", "b\x7d"] = substitute format ["a", "b\x7d"]) := by
  intro format
  have hturns : TurnsApart format ["a\x7b", "b\x7d"] := by decide +kernel
  have hformat : .char '{' ∉ messageParts format.toList := by decide +kernel
  have hargs : ∀ arg ∈ ["a", "b\x7d"], '{' ∉ arg.toList := by decide +kernel
  exact ⟨⟨hturns, (formatMessage_eq_substitute_iff _ _).1.mpr hturns 2 (Nat.le_refl 2)⟩,
    hformat, hargs, (formatMessage_eq_substitute_iff _ _).2.2.2.2 hformat hargs⟩

-- The last of three turns puts back what the second has taken out.
example : ¬ TurnsApart "\x7b0\x7d" ["\x7b1\x7d", "\x7b2\x7d", "\x7b1\x7d"] ∧
    formatMessage "\x7b0\x7d" ["\x7b1\x7d", "\x7b2\x7d", "\x7b1\x7d"] =
      substitute "\x7b0\x7d" ["\x7b1\x7d", "\x7b2\x7d", "\x7b1\x7d"] := by
  decide +kernel

/-- An argument that is a placeholder of a later one, or that becomes one between the braces of the
format, is not put in as it is. -/
theorem formatMessage_replaces_in_argument :
    (formatMessage "\x7b0\x7d" ["\x7b1\x7d", "b"] = "b" ∧
      substitute "\x7b0\x7d" ["\x7b1\x7d", "b"] = "\x7b1\x7d") ∧
    (formatMessage "\x7b\x7b0\x7d\x7d" ["1", "b"] = "b" ∧
      substitute "\x7b\x7b0\x7d\x7d" ["1", "b"] = "\x7b1\x7d") := by
  decide +kernel

end ResourceLanguage
