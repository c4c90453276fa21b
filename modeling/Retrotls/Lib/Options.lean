import Retrotls.Lib.Text

/-!
# Options of a command line

The options of a command come first among its arguments. An argument spells an option by
its long name (`--name`, `--name=value`) or its short one (`-c`, `-c=value`, `-cvalue`);
an option that takes a value and has none yet takes the next argument, which must be
plain.

* `Spelling`, `Occurs`, `Reads`: the grammar.
* `spell_iff`: `spell` reads one argument.
* `readOptions_iff`: **`readOptions` reads exactly what the grammar derives**, up to the
  first argument that is no option.
-/

namespace Retrotls

/-- The name of an option, without its dashes. -/
inductive OptName
  | long (name : Str)
  | short (c : Char)
  deriving DecidableEq

/-- **How an argument spells an option**: the name, and the value in the same argument, if
there is one. -/
inductive Spelling : Str → OptName → Option Str → Prop
  | long {name : Str} (h : '=' ∉ name) : Spelling ('-' :: '-' :: name) (.long name) none
  | longEq {name value : Str} (h : '=' ∉ name) :
      Spelling ('-' :: '-' :: (name ++ '=' :: value)) (.long name) (some value)
  | short {c : Char} (h : c ≠ '-') : Spelling ['-', c] (.short c) none
  | shortEq {c : Char} {value : Str} (h : c ≠ '-') :
      Spelling ('-' :: c :: '=' :: value) (.short c) (some value)
  | shortNext {c x : Char} {value : Str} (h : c ≠ '-') (hx : x ≠ '=') :
      Spelling ('-' :: c :: x :: value) (.short c) (some (x :: value))

/-- The value after a short name. -/
def shortValue : Str → Option Str
  | [] => none
  | x :: value => some (if x = '=' then value else x :: value)

/-- Reads an argument as an option. -/
def spell : Str → Option (OptName × Option Str)
  | '-' :: c :: rest =>
    if c = '-' then
      match splitOnce rest '=' with
      | some (name, value) => some (.long name, some value)
      | none => some (.long rest, none)
    else some (.short c, shortValue rest)
  | _ => none

theorem spell_complete {arg : Str} {name : OptName} {value : Option Str}
    (h : Spelling arg name value) : spell arg = some (name, value) := by
  cases h with
  | long h =>
    rw [spell, if_pos rfl, splitOnce_of_not_mem h]
  | longEq h =>
    rw [spell, if_pos rfl, splitOnce_append h]
  | short h =>
    rw [spell, if_neg h]
    rfl
  | shortEq h =>
    rw [spell, if_neg h, shortValue, if_pos rfl]
  | shortNext h hx =>
    rw [spell, if_neg h, shortValue, if_neg hx]

theorem spell_sound {arg : Str} {name : OptName} {value : Option Str}
    (h : spell arg = some (name, value)) : Spelling arg name value := by
  unfold spell at h
  split at h
  · rename_i c rest
    by_cases hc : c = '-'
    · rw [if_pos hc] at h
      subst hc
      rcases split_cases rest '=' with ⟨hm, hs⟩ | ⟨a, b, ha, rfl, hs⟩
      · rw [hs] at h
        cases h
        exact .long hm
      · rw [hs] at h
        cases h
        exact .longEq ha
    · rw [if_neg hc] at h
      cases h
      cases rest with
      | nil => exact .short hc
      | cons x value =>
        by_cases hx : x = '='
        · rw [shortValue, if_pos hx, hx]
          exact .shortEq hc
        · rw [shortValue, if_neg hx]
          exact .shortNext hc hx
  · cases h

/-- **`spell` reads the spellings.** -/
theorem spell_iff {arg : Str} {name : OptName} {value : Option Str} :
    spell arg = some (name, value) ↔ Spelling arg name value :=
  ⟨spell_sound, spell_complete⟩

/-- The options of a command. -/
structure Options (ι : Type) where
  named : OptName → Option ι
  /-- The option takes a value. -/
  takes : ι → Bool
  /-- The values that the option accepts. -/
  accepts : ι → Str → Bool

/-- The argument can be a value on its own: it does not start with a dash, or is one. -/
def isPlain (arg : Str) : Bool := arg.head? ≠ some '-' || arg = ['-']

namespace Options

variable {ι : Type} (o : Options ι)

/-- **One occurrence of an option**, with its value. -/
inductive Occurs : List Str → ι × Option Str → Prop
  | flag {arg : Str} {name : OptName} {i : ι} (hs : Spelling arg name none)
      (hn : o.named name = some i) (ht : o.takes i = false) : Occurs [arg] (i, none)
  | attached {arg value : Str} {name : OptName} {i : ι} (hs : Spelling arg name (some value))
      (hn : o.named name = some i) (ht : o.takes i = true) (hv : o.accepts i value = true) :
      Occurs [arg] (i, some value)
  | next {arg value : Str} {name : OptName} {i : ι} (hs : Spelling arg name none)
      (hn : o.named name = some i) (ht : o.takes i = true) (hp : isPlain value = true)
      (hv : o.accepts i value = true) : Occurs [arg, value] (i, some value)

/-- **A sequence of occurrences.** -/
inductive Reads : List Str → List (ι × Option Str) → Prop
  | nil : Reads [] []
  | cons {args rest : List Str} {x : ι × Option Str} {xs : List (ι × Option Str)}
      (h : o.Occurs args x) (hr : Reads rest xs) : Reads (args ++ rest) (x :: xs)

/-- The option that an argument starts, and the value it has already. -/
def lead (arg : Str) : Option (ι × Option Str) :=
  (spell arg).bind fun (name, value) => (o.named name).map fun i => (i, value)

/-- Reads the options, up to the first argument that is none. -/
def readOptions : List Str → Option (List (ι × Option Str) × List Str)
  | [] => some ([], [])
  | arg :: rest =>
    match o.lead arg with
    | none => some ([], arg :: rest)
    | some (i, some value) =>
      if o.takes i && o.accepts i value then
        (readOptions rest).map fun r => ((i, some value) :: r.1, r.2)
      else none
    | some (i, none) =>
      if o.takes i then
        match rest with
        | [] => none
        | value :: rest =>
          if isPlain value && o.accepts i value then
            (readOptions rest).map fun r => ((i, some value) :: r.1, r.2)
          else none
      else (readOptions rest).map fun r => ((i, none) :: r.1, r.2)

/-- The arguments start with no option. -/
def Stops (args : List Str) : Prop := ∀ arg, args.head? = some arg → o.lead arg = none

variable {o} {args rest : List Str} {xs : List (ι × Option Str)}

theorem lead_iff {arg : Str} {i : ι} {value : Option Str} : o.lead arg = some (i, value) ↔
    ∃ name, Spelling arg name value ∧ o.named name = some i := by
  unfold lead
  rw [Option.bind_eq_some_iff]
  constructor
  · rintro ⟨⟨name, v⟩, hs, hn⟩
    obtain ⟨j, hj, he⟩ := Option.map_eq_some_iff.1 hn
    cases he
    exact ⟨name, spell_iff.1 hs, hj⟩
  · rintro ⟨name, hs, hn⟩
    exact ⟨(name, value), spell_iff.2 hs, by simp [hn]⟩

/-- One occurrence is read. -/
theorem readOptions_occurs {x : ι × Option Str} (h : o.Occurs args x) (rest : List Str) :
    o.readOptions (args ++ rest) = (o.readOptions rest).map fun r => (x :: r.1, r.2) := by
  cases h with
  | flag hs hn ht =>
    have hl := lead_iff.2 ⟨_, hs, hn⟩
    simp only [List.singleton_append, readOptions, hl, ht, Bool.false_eq_true, if_false]
  | attached hs hn ht hv =>
    have hl := lead_iff.2 ⟨_, hs, hn⟩
    simp only [List.singleton_append, readOptions, hl, ht, hv, Bool.and_self, if_true]
  | next hs hn ht hp hv =>
    have hl := lead_iff.2 ⟨_, hs, hn⟩
    simp only [List.cons_append, List.nil_append, readOptions, hl, ht, hp, hv, Bool.and_self, if_true]

/-- **What the grammar derives is read.** -/
theorem readOptions_complete (h : o.Reads args xs) (hs : o.Stops rest) :
    o.readOptions (args ++ rest) = some (xs, rest) := by
  induction h with
  | nil =>
    cases rest with
    | nil => rfl
    | cons arg rest =>
      have hl := hs arg rfl
      simp only [List.nil_append, readOptions, hl]
  | cons h _ ih => rw [List.append_assoc, readOptions_occurs h, ih, Option.map_some]

/-- What a sequence of arguments is read as is derived by the grammar. -/
def Sound (o : Options ι) (args : List Str) : Prop := ∀ xs rest,
  o.readOptions args = some (xs, rest) → ∃ w, args = w ++ rest ∧ o.Reads w xs ∧ o.Stops rest

theorem sound_cons {x : ι × Option Str} (hx : o.Occurs args x) (hrest : o.Sound rest)
    {r : List Str} (h : (o.readOptions rest).map (fun r => (x :: r.1, r.2)) = some (xs, r)) :
    ∃ w, args ++ rest = w ++ r ∧ o.Reads w xs ∧ o.Stops r := by
  obtain ⟨⟨ys, r'⟩, hread, he⟩ := Option.map_eq_some_iff.1 h
  cases he
  obtain ⟨w, rfl, hw, hs⟩ := hrest ys r' hread
  exact ⟨args ++ w, by rw [List.append_assoc], .cons hx hw, hs⟩

/-- **What is read is derived by the grammar.** -/
theorem readOptions_sound (o : Options ι) (args : List Str) : o.Sound args := by
  intro xs r h
  fun_induction o.readOptions args generalizing xs r with
  | case1 =>
    cases h
    exact ⟨[], rfl, .nil, nofun⟩
  | case2 arg rest hl =>
    cases h
    refine ⟨[], rfl, .nil, ?_⟩
    rintro _ ⟨rfl⟩
    exact hl
  | case3 arg rest i value hl hok ih =>
    rw [Bool.and_eq_true] at hok
    obtain ⟨name, hs, hn⟩ := lead_iff.1 hl
    exact sound_cons (.attached hs hn hok.1 hok.2) ih h
  | case4 => cases h
  | case5 => cases h
  | case6 arg i hl ht value rest hok ih =>
    rw [Bool.and_eq_true] at hok
    obtain ⟨name, hs, hn⟩ := lead_iff.1 hl
    exact sound_cons (.next hs hn ht hok.1 hok.2) ih h
  | case7 => cases h
  | case8 arg rest i hl ht ih =>
    obtain ⟨name, hs, hn⟩ := lead_iff.1 hl
    exact sound_cons (.flag hs hn (by simpa using ht)) ih h

/-- **Reading and the grammar agree.** -/
theorem readOptions_iff {r : List Str} : o.readOptions args = some (xs, r) ↔
    ∃ w, args = w ++ r ∧ o.Reads w xs ∧ o.Stops r := by
  constructor
  · exact readOptions_sound o args xs r
  · rintro ⟨w, rfl, hw, hs⟩
    exact readOptions_complete hw hs

/-- An argument of the options is a value on its own, or starts an option that occurs. -/
theorem mem_reads {arg : Str} (h : o.Reads args xs) (hm : arg ∈ args) :
    isPlain arg = true ∨ ∃ i v v', o.lead arg = some (i, v) ∧ (i, v') ∈ xs := by
  induction h with
  | nil => cases hm
  | cons hx _ ih =>
    rcases List.mem_append.1 hm with hm | hm
    · cases hx with
      | flag hs hn ht =>
        rw [List.mem_singleton.1 hm]
        exact Or.inr ⟨_, _, _, lead_iff.2 ⟨_, hs, hn⟩, List.mem_cons_self⟩
      | attached hs hn ht hv =>
        rw [List.mem_singleton.1 hm]
        exact Or.inr ⟨_, _, _, lead_iff.2 ⟨_, hs, hn⟩, List.mem_cons_self⟩
      | next hs hn ht hp hv =>
        rcases List.mem_cons.1 hm with rfl | hm
        · exact Or.inr ⟨_, _, _, lead_iff.2 ⟨_, hs, hn⟩, List.mem_cons_self⟩
        · rw [List.mem_singleton.1 hm]
          exact Or.inl hp
    · rcases ih hm with h | ⟨i, v, v', hl, hi⟩
      · exact Or.inl h
      · exact Or.inr ⟨i, v, v', hl, List.mem_cons_of_mem _ hi⟩

theorem reads_append {args' : List Str} {ys : List (ι × Option Str)} (h : o.Reads args xs)
    (h' : o.Reads args' ys) : o.Reads (args ++ args') (xs ++ ys) := by
  induction h with
  | nil => exact h'
  | cons hx _ ih =>
    rw [List.append_assoc]
    exact .cons hx ih

end Options

end Retrotls
