/-
  # Writing and reading rules (`xattrmap.rs`)

  A list of rules, written with delimiters and white space, is read back as the same rules,
  byte for byte, EXACTLY if all keys and prepends are ASCII (`tryFrom_chars_iff`).

  The parser goes through the characters of the string and keeps the low byte of each
  (`ch as u8`).  So every other character is changed: `é` becomes one byte where it has two, and
  `ū` becomes `k`.  A character whose low byte is zero, as `Ā`, is taken for a NUL, and the
  parser panics.
-/
import Virtiofsd.Passthrough.XattrMap

namespace Virtiofsd

open Lib Outcome List

namespace XattrMap

/-! ## 1. Rules as they are written -/

def typeWord : XattrRuleType → List Char
  | .addPrefix => prefixWord
  | .okay => okWord
  | .bad => badWord
  | .unsupported => unsupportedWord

def Scope.word : Scope → List Char
  | .all => allWord
  | .client => clientWord
  | .server => serverWord

/-- **A rule before it is written.** -/
inductive RuleText where
  | plain (type : XattrRuleType) (scope : Scope) (key prepend : List Char)
  | map (key prepend : List Char)

namespace RuleText

def key : RuleText → List Char
  | plain _ _ key _ => key
  | map key _ => key

def prepend : RuleText → List Char
  | plain _ _ _ prepend => prepend
  | map _ prepend => prepend

/-- The fields in front of the key. -/
def head : RuleText → List (List Char)
  | plain type scope _ _ => [typeWord type, scope.word]
  | map _ _ => [mapWord]

def fields (t : RuleText) : List (List Char) := t.head ++ [t.key, t.prepend]

def IsMap : RuleText → Prop
  | plain _ _ _ _ => False
  | map _ _ => True

/-- The rules it stands for, with the characters of its key and its prepend as bytes. -/
def rules (encode : List Char → Name) : RuleText → List XattrRule
  | plain type scope key prepend =>
    [⟨scope.isClient, scope.isServer, type, encode key, encode prepend⟩]
  | map key prepend => expandMapType (encode key) (encode prepend)

variable {delim : Char} {bytes : List UInt8} {tokens : List Char} {field : List Char}
  {space : List Char} {p : Panic} {ch : Char}

theorem rules_ne_nil (encode : List Char → Name) (t : RuleText) : t.rules encode ≠ [] := by
  cases t with
  | plain => simp [rules]
  | map key prepend =>
    simp only [rules, expandMapType]
    split <;> simp

end RuleText

/-- **A rule that is written**: white space, and its fields between delimiters. -/
structure Written where
  space : List Char
  delim : Char
  text : RuleText
  space_ascii : ∀ ch ∈ space, isAsciiWhitespace ch = true
  delim_dark : isWhitespace delim = false
  delim_fresh : ∀ f ∈ text.fields, delim ∉ f
  nulFree : ∀ f ∈ text.fields, Char.ofNat 0 ∉ f

/-- Fields, each with the delimiter behind it. -/
def closeFields (delim : Char) (fields : List (List Char)) : List Char :=
  fields.flatMap (· ++ [delim])

namespace Written

def chars (r : Written) : List Char := r.space ++ r.delim :: closeFields r.delim r.text.fields

end Written

/-- The string of a list of rules. -/
def charsOf (rules : List Written) : List Char := rules.flatMap Written.chars

/-- A `map` rule comes last, if there is one. -/
def MapLast (rules : List Written) : Prop := ∀ r ∈ rules.dropLast, ¬ r.text.IsMap

/-- What the parser makes of a field. -/
def narrowed (field : List Char) : Name := field.map narrow

/-- The bytes of a string. -/
def utf8 (field : List Char) : Name := field.flatMap String.utf8EncodeChar

/-! ## 2. Reading one rule -/

theorem nextToken_append (h : delim ∉ field) (rest : List Char) :
    nextToken delim (field ++ delim :: rest) = .ok (narrowed field, rest) := by
  induction field with
  | nil => simp [nextToken, narrowed]
  | cons ch field ih =>
    rw [mem_cons, not_or] at h
    have htail := ih h.2
    simp only [cons_append, nextToken, ne_eq, Ne.symm h.1, not_false_eq_true, if_true, htail]
    rfl

/-- A token is a field, and the delimiter stands behind it. -/
theorem nextToken_eq_ok {rest : List Char} :
    ∀ {tokens : List Char}, nextToken delim tokens = .ok (bytes, rest) →
      ∃ field, delim ∉ field ∧ tokens = field ++ delim :: rest ∧ bytes = narrowed field := by
  intro tokens
  induction tokens generalizing bytes with
  | nil => intro h; cases h
  | cons ch tokens ih =>
    intro h
    unfold nextToken at h
    split at h
    · next hne =>
      obtain ⟨⟨bytes', rest'⟩, htail, hret⟩ := bind_eq_ok.mp h
      cases hret
      obtain ⟨field, hfresh, rfl, rfl⟩ := ih htail
      refine ⟨ch :: field, ?_, rfl, rfl⟩
      rw [mem_cons, not_or]
      exact ⟨fun heq => hne heq.symm, hfresh⟩
    · next heq =>
      cases h
      exact ⟨[], not_mem_nil, by rw [not_not.mp heq]; rfl, rfl⟩

theorem nextToken_ne_panic :
    ∀ tokens : List Char, nextToken delim tokens ≠ .panic p := by
  intro tokens
  induction tokens with
  | nil => intro h; cases h
  | cons ch tokens ih =>
    intro h
    unfold nextToken at h
    split at h
    · obtain hpanic | ⟨_, _, hret⟩ := bind_eq_panic.mp h
      · exact ih hpanic
      · cases hret
    · cases h

theorem Kind.fromBytes_eq_ok {kind : Kind} (h : Kind.fromBytes bytes = .ok kind) :
    (∃ type, kind = .plain type ∧ bytes = narrowed (typeWord type)) ∨
      kind = .map ∧ bytes = narrowed mapWord := by
  unfold Kind.fromBytes at h
  split at h
  · cases h; exact .inl ⟨.addPrefix, rfl, ‹_›⟩
  split at h
  · cases h; exact .inl ⟨.okay, rfl, ‹_›⟩
  split at h
  · cases h; exact .inl ⟨.bad, rfl, ‹_›⟩
  split at h
  · cases h; exact .inl ⟨.unsupported, rfl, ‹_›⟩
  split at h
  · cases h; exact .inr ⟨rfl, ‹_›⟩
  · cases h

theorem Scope.fromBytes_eq_ok {scope : Scope} (h : Scope.fromBytes bytes = .ok scope) :
    bytes = narrowed scope.word := by
  unfold Scope.fromBytes at h
  split at h
  · cases h; assumption
  split at h
  · cases h; assumption
  split at h
  · cases h; assumption
  · cases h

@[simp] theorem Kind.fromBytes_typeWord (type : XattrRuleType) :
    Kind.fromBytes (narrowed (typeWord type)) = .ok (.plain type) := by
  cases type <;> decide

@[simp] theorem Kind.fromBytes_mapWord : Kind.fromBytes (narrowed mapWord) = .ok .map := by
  decide

@[simp] theorem Scope.fromBytes_word (scope : Scope) :
    Scope.fromBytes (narrowed scope.word) = .ok scope := by
  cases scope <;> decide

/-- **The fields in front of a key**: they are compared by their low bytes. -/
inductive Head : List (List Char) → Prop
  | plain {ty sc : List Char} (type : XattrRuleType) (scope : Scope)
      (htype : narrowed ty = narrowed (typeWord type))
      (hscope : narrowed sc = narrowed scope.word) : Head [ty, sc]
  | map {ty : List Char} (htype : narrowed ty = narrowed mapWord) : Head [ty]

theorem RuleText.head_isHead : ∀ t : RuleText, Head t.head
  | plain type scope _ _ => .plain type scope rfl rfl
  | map _ _ => .map rfl

@[simp] theorem closeFields_nil (delim : Char) : closeFields delim [] = [] := rfl

@[simp] theorem closeFields_cons (delim : Char) (f : List Char) (fields : List (List Char))
    (rest : List Char) :
    closeFields delim (f :: fields) ++ rest = f ++ delim :: (closeFields delim fields ++ rest) := by
  simp [closeFields]

theorem closeFields_append (delim : Char) (fields fields' : List (List Char))
    (rest : List Char) :
    closeFields delim (fields ++ fields') ++ rest =
      closeFields delim fields ++ (closeFields delim fields' ++ rest) := by
  simp [closeFields]

/-- What the head of a rule makes of its key and its prepend. -/
def headRule (head : List (List Char)) (key prepend : Name) : RawRule :=
  match head with
  | [ty, sc] =>
    match Kind.fromBytes (narrowed ty), Scope.fromBytes (narrowed sc) with
    | .ok (.plain type), .ok scope => .plain ⟨scope.isClient, scope.isServer, type, key, prepend⟩
    | _, _ => .map key prepend
  | _ => .map key prepend

/-- Behind its head, a rule is read field by field. -/
theorem fromTokens_of_head {head : List (List Char)} (hhead : Head head)
    (hfresh : ∀ f ∈ head, delim ∉ f) (tokens : List Char) :
    fromTokens (delim :: (closeFields delim head ++ tokens)) =
      keyAndPrepend delim tokens >>= fun x => pure (headRule head x.1 x.2.1, x.2.2) := by
  cases hhead with
  | @plain ty sc type scope htype hscope =>
    have hty : delim ∉ ty := hfresh _ (by simp)
    have hsc : delim ∉ sc := hfresh _ (by simp)
    simp only [fromTokens, closeFields_cons, closeFields_nil, nil_append,
      nextToken_append hty, nextToken_append hsc, ok_bind, htype, hscope,
      Kind.fromBytes_typeWord, Scope.fromBytes_word, headRule]
  | @map ty htype =>
    have hty : delim ∉ ty := hfresh _ (by simp)
    simp only [fromTokens, closeFields_cons, closeFields_nil, nil_append,
      nextToken_append hty, ok_bind, htype, Kind.fromBytes_mapWord, headRule]

/-- A rule without a proper head is an error. -/
theorem fromTokens_head (delim : Char) (tokens : List Char) :
    (∃ e, fromTokens (delim :: tokens) = .err e) ∨ ∃ head rest, Head head ∧
      (∀ f ∈ head, delim ∉ f) ∧ tokens = closeFields delim head ++ rest := by
  cases htoken : nextToken delim tokens with
  | err e => exact .inl ⟨e, by simp only [fromTokens, htoken, err_bind]⟩
  | panic p => exact absurd htoken (nextToken_ne_panic _)
  | ok x =>
    obtain ⟨bytes, tokens₁⟩ := x
    obtain ⟨ty, hty, rfl, rfl⟩ := nextToken_eq_ok htoken
    cases hkind : Kind.fromBytes (narrowed ty) with
    | err e => exact .inl ⟨e, by simp only [fromTokens, htoken, hkind, ok_bind,
        err_bind]⟩
    | panic p =>
      unfold Kind.fromBytes at hkind
      split_ifs at hkind
    | ok kind =>
      obtain ⟨type, rfl, htype⟩ | ⟨rfl, htype⟩ := Kind.fromBytes_eq_ok hkind
      · cases hscopes : nextToken delim tokens₁ with
        | err e => exact .inl ⟨e, by simp only [fromTokens, htoken, hkind, hscopes,
            ok_bind, err_bind]⟩
        | panic p => exact absurd hscopes (nextToken_ne_panic _)
        | ok x =>
          obtain ⟨bytes, tokens₂⟩ := x
          obtain ⟨sc, hsc, rfl, rfl⟩ := nextToken_eq_ok hscopes
          cases hscope : Scope.fromBytes (narrowed sc) with
          | err e => exact .inl ⟨e, by simp only [fromTokens, htoken, hkind, hscopes, hscope,
              ok_bind, err_bind]⟩
          | panic p =>
            unfold Scope.fromBytes at hscope
            split_ifs at hscope
          | ok scope =>
            refine .inr ⟨[ty, sc], tokens₂, .plain type scope htype
              (Scope.fromBytes_eq_ok hscope), ?_, by simp⟩
            simp [hty, hsc]
      · exact .inr ⟨[ty], tokens₁, .map htype, by simp [hty], by simp⟩

/-- A key and a prepend that a C string can hold once they are narrowed. -/
def RuleText.Narrows (t : RuleText) : Prop := 0 ∉ narrowed t.key ∧ 0 ∉ narrowed t.prepend

instance (t : RuleText) : Decidable t.Narrows := inferInstanceAs (Decidable (_ ∧ _))

theorem keyAndPrepend_append {key prepend : List Char} (hkey : delim ∉ key)
    (hprepend : delim ∉ prepend) (rest : List Char) :
    keyAndPrepend delim (key ++ delim :: (prepend ++ delim :: rest)) =
      if 0 ∉ narrowed key ∧ 0 ∉ narrowed prepend
      then .ok (narrowed key, narrowed prepend, rest) else .panic .interiorNul := by
  unfold keyAndPrepend
  simp only [nextToken_append hkey, nextToken_append hprepend, ok_bind, cstring]
  by_cases hnul : 0 ∈ narrowed key
  · simp [hnul]
  · by_cases hnul' : 0 ∈ narrowed prepend <;> simp [hnul, hnul']

/-- What is read of a rule. -/
def RuleText.raw : RuleText → RawRule
  | plain type scope key prepend =>
    .plain ⟨scope.isClient, scope.isServer, type, narrowed key, narrowed prepend⟩
  | map key prepend => .map (narrowed key) (narrowed prepend)

theorem headRule_head : ∀ t : RuleText, headRule t.head (narrowed t.key) (narrowed t.prepend) =
    t.raw
  | .plain type scope key prepend => by simp [headRule, RuleText.head, RuleText.raw, RuleText.key,
      RuleText.prepend]
  | .map key prepend => rfl

/-- **One rule is read as it was written**, but for its narrowed bytes. -/
theorem fromTokens_chars {t : RuleText} (h : ∀ f ∈ t.fields, delim ∉ f) (rest : List Char) :
    fromTokens (delim :: (closeFields delim t.fields ++ rest)) =
      if t.Narrows then .ok (t.raw, rest) else .panic .interiorNul := by
  have hhead : ∀ f ∈ t.head, delim ∉ f := fun f hf => h f (mem_append_left _ hf)
  have hkey : delim ∉ t.key := h _ (by simp [RuleText.fields])
  have hprepend : delim ∉ t.prepend := h _ (by simp [RuleText.fields])
  rw [RuleText.fields, closeFields_append, fromTokens_of_head t.head_isHead hhead]
  simp only [closeFields_cons, closeFields_nil, nil_append,
    keyAndPrepend_append hkey hprepend]
  by_cases hnarrow : t.Narrows
  · have hnul : 0 ∉ narrowed t.key ∧ 0 ∉ narrowed t.prepend := hnarrow
    rw [if_pos hnarrow, if_pos hnul, ok_bind, headRule_head]
    rfl
  · have hnul : ¬ (0 ∉ narrowed t.key ∧ 0 ∉ narrowed t.prepend) := hnarrow
    rw [if_neg hnarrow, if_neg hnul, panic_bind]

/-! ## 3. Reading all of them -/

theorem isAsciiWhitespace_of_dark (h : isWhitespace ch = false) :
    isAsciiWhitespace ch = false := by
  simp only [isWhitespace, isAsciiWhitespace, mem_cons, not_mem_nil, or_false,
    Bool.or_eq_false_iff, decide_eq_false_iff_not] at h ⊢
  omega

theorem isWhitespace_of_ascii (h : isAsciiWhitespace ch = true) :
    isWhitespace ch = true := by
  by_contra hdark
  rw [isAsciiWhitespace_of_dark (Bool.eq_false_iff.mpr hdark)] at h
  cases h

theorem rulesLoop_spaces (h : ∀ ch ∈ space, isAsciiWhitespace ch = true) (rest : List Char)
    (rules : List XattrRule) :
    rulesLoop (space ++ rest) rules = rulesLoop rest rules := by
  induction space with
  | nil => rfl
  | cons ch space ih =>
    obtain ⟨hch, hspace⟩ := forall_mem_cons.mp h
    rw [cons_append, rulesLoop_space hch, ih hspace]

/-- **The loop over rules that are written.** -/
theorem rulesLoop_charsOf (rules : List Written) (hlast : MapLast rules) : ∀ acc,
    rulesLoop (charsOf rules) acc = if ∀ r ∈ rules, r.text.Narrows
      then .ok (acc ++ rules.flatMap (·.text.rules narrowed)) else .panic .interiorNul := by
  induction rules with
  | nil =>
    intro acc
    simp [charsOf, rulesLoop_nil]
  | cons r rules ih =>
    intro acc
    have hread := fromTokens_chars r.delim_fresh (charsOf rules)
    have hascii := isAsciiWhitespace_of_dark r.delim_dark
    have hchars : charsOf (r :: rules) =
        r.space ++ r.delim :: (closeFields r.delim r.text.fields ++ charsOf rules) := by
      simp [charsOf, Written.chars]
    rw [hchars, rulesLoop_spaces r.space_ascii]
    by_cases hnarrow : r.text.Narrows
    · rw [if_pos hnarrow] at hread
      cases ht : r.text with
      | plain type scope key prepend =>
        have hrest : MapLast rules := by
          intro r' hr'
          cases rules with
          | nil => cases hr'
          | cons r₁ rules => exact hlast r' (mem_cons_of_mem _ hr')
        rw [ht] at hread
        rw [rulesLoop_plain hascii hread, ih hrest]
        simp [ht ▸ hnarrow, ht, RuleText.rules]
      | map key prepend =>
        -- nothing follows
        obtain rfl : rules = [] := by
          cases rules with
          | nil => rfl
          | cons r₁ rules =>
            refine absurd ?_ (hlast r (by simp))
            rw [ht]
            trivial
        rw [ht] at hread
        rw [rulesLoop_map hascii hread]
        simp [ht ▸ hnarrow, ht, RuleText.rules]
    · rw [if_neg hnarrow] at hread
      rw [rulesLoop_panic hascii hread, if_neg]
      exact fun hall => hnarrow (hall r mem_cons_self)

/-- A rule ends with its delimiter. -/
theorem Written.chars_concat (r : Written) : ∃ front, r.chars = front ++ [r.delim] := by
  refine ⟨r.space ++ r.delim :: (closeFields r.delim (r.text.head ++ [r.text.key]) ++
    r.text.prepend), ?_⟩
  simp [Written.chars, closeFields, RuleText.fields]

theorem rdropWhile_append_of_pos {p : Char → Bool} {l l' : List Char}
    (h : ∀ ch ∈ l', p ch = true) :
    (l ++ l').rdropWhile p = l.rdropWhile p := by
  rw [rdropWhile, reverse_append, dropWhile_append_of_pos, rdropWhile]
  exact fun ch hch => h ch (mem_reverse.mp hch)

/-- White space around the rules goes. -/
theorem rulesLoop_trim {rules : List Written} (hne : rules ≠ [])
    (hspace : ∀ ch ∈ space, isAsciiWhitespace ch = true) (acc : List XattrRule) :
    rulesLoop (trim (charsOf rules ++ space)) acc = rulesLoop (charsOf rules) acc := by
  obtain ⟨r, rules', rfl⟩ := exists_cons_of_ne_nil hne
  have hchars : charsOf (r :: rules') =
      r.space ++ r.delim :: (closeFields r.delim r.text.fields ++ charsOf rules') := by
    simp [charsOf, Written.chars]
  have hfront : (charsOf (r :: rules') ++ space).dropWhile isWhitespace =
      r.delim :: (closeFields r.delim r.text.fields ++ charsOf rules') ++ space := by
    rw [hchars, append_assoc, dropWhile_append_of_pos fun ch hch =>
      isWhitespace_of_ascii (r.space_ascii ch hch), cons_append, dropWhile_cons_of_neg]
    simp [r.delim_dark]
  -- the last character is a delimiter
  obtain ⟨init, last, hinit⟩ : ∃ init last, r :: rules' = init ++ [last] :=
    ⟨_, _, (dropLast_append_getLast (cons_ne_nil r rules')).symm⟩
  obtain ⟨front, hlast⟩ := last.chars_concat
  have hend : charsOf (r :: rules') = charsOf init ++ front ++ [last.delim] := by
    rw [hinit]
    simp [charsOf, hlast]
  have hback : (r.delim :: (closeFields r.delim r.text.fields ++ charsOf rules') ++
      space).rdropWhile isWhitespace =
        r.delim :: (closeFields r.delim r.text.fields ++ charsOf rules') := by
    rw [rdropWhile_append_of_pos fun ch hch => isWhitespace_of_ascii (hspace ch hch),
      rdropWhile_eq_self_iff]
    intro hne
    have hdelim : (r.delim :: (closeFields r.delim r.text.fields ++ charsOf rules')).getLast hne =
        last.delim := by
      have hsome := congrArg getLast? (hchars.symm.trans hend)
      rw [getLast?_append_of_ne_nil _ hne, getLast?_concat,
        getLast?_eq_some_getLast hne] at hsome
      exact Option.some.inj hsome
    rw [hdelim]
    simp [last.delim_dark]
  rw [trim, hfront, hback, hchars, rulesLoop_spaces r.space_ascii]

/-- **Rules that are written are read**, but for their narrowed bytes. -/
theorem tryFrom_charsOf {rules : List Written} (hne : rules ≠ []) (hlast : MapLast rules)
    (hspace : ∀ ch ∈ space, isAsciiWhitespace ch = true) :
    tryFrom (charsOf rules ++ space) = if ∀ r ∈ rules, r.text.Narrows
      then .ok ⟨rules.flatMap (·.text.rules narrowed)⟩ else .panic .interiorNul := by
  rw [tryFrom, rulesLoop_trim hne hspace, rulesLoop_charsOf rules hlast, nil_append]
  by_cases hall : ∀ r ∈ rules, r.text.Narrows
  · rw [if_pos hall, if_pos hall]
    obtain ⟨r, rules', rfl⟩ := exists_cons_of_ne_nil hne
    obtain ⟨rule, rest, hrule⟩ :=
      exists_cons_of_ne_nil (r.text.rules_ne_nil narrowed)
    rw [flatMap_cons, hrule, cons_append]
  · rw [if_neg hall, if_neg hall]

/-! ## 4. Strings at which the parser panics -/

/-- **A key or a prepend with a NUL among its low bytes**, in a rule up to which the string is
well formed. -/
inductive HidesNul : List Char → Prop
  | space {ch : Char} {rest : List Char} (hspace : isAsciiWhitespace ch = true)
      (hrest : HidesNul rest) : HidesNul (ch :: rest)
  | rule {delim : Char} {ty sc key prepend rest : List Char}
      (hdelim : isAsciiWhitespace delim = false) (hhead : Head [ty, sc])
      (hfresh : ∀ f ∈ [ty, sc, key, prepend], delim ∉ f)
      (hkey : 0 ∉ narrowed key) (hprepend : 0 ∉ narrowed prepend) (hrest : HidesNul rest) :
      HidesNul (delim :: (closeFields delim [ty, sc, key, prepend] ++ rest))
  | key {delim : Char} {head : List (List Char)} {key rest : List Char}
      (hdelim : isAsciiWhitespace delim = false) (hhead : Head head)
      (hfresh : ∀ f ∈ head ++ [key], delim ∉ f) (hnul : 0 ∈ narrowed key) :
      HidesNul (delim :: (closeFields delim (head ++ [key]) ++ rest))
  | prepend {delim : Char} {head : List (List Char)} {key prepend rest : List Char}
      (hdelim : isAsciiWhitespace delim = false) (hhead : Head head)
      (hfresh : ∀ f ∈ head ++ [key, prepend], delim ∉ f) (hnul : 0 ∈ narrowed prepend) :
      HidesNul (delim :: (closeFields delim (head ++ [key, prepend]) ++ rest))

theorem cstring_eq_panic (h : cstring bytes = .panic p) :
    0 ∈ bytes := by
  unfold cstring at h
  split at h
  · assumption
  · cases h

theorem cstring_eq_ok {name : Name} (h : cstring bytes = .ok name) :
    0 ∉ bytes := by
  unfold cstring at h
  split at h
  · cases h
  · assumption

theorem keyAndPrepend_eq_panic (h : keyAndPrepend delim tokens = .panic p) :
    ∃ key rest, delim ∉ key ∧ tokens = key ++ delim :: rest ∧
      (0 ∈ narrowed key ∨ ∃ prepend rest', delim ∉ prepend ∧ rest = prepend ++ delim :: rest' ∧
        0 ∈ narrowed prepend) := by
  obtain hpanic | ⟨⟨bytes, tokens₁⟩, htoken, h⟩ := bind_eq_panic.mp h
  · exact absurd hpanic (nextToken_ne_panic _)
  obtain ⟨key, hkey, rfl, rfl⟩ := nextToken_eq_ok htoken
  refine ⟨key, tokens₁, hkey, rfl, ?_⟩
  obtain hpanic | ⟨_, -, h⟩ := bind_eq_panic.mp h
  · exact .inl (cstring_eq_panic hpanic)
  obtain hpanic | ⟨⟨bytes, tokens₂⟩, htoken, h⟩ := bind_eq_panic.mp h
  · exact absurd hpanic (nextToken_ne_panic _)
  obtain ⟨prepend, hprepend, rfl, rfl⟩ := nextToken_eq_ok htoken
  obtain hpanic | ⟨_, -, h⟩ := bind_eq_panic.mp h
  · exact .inr ⟨prepend, tokens₂, hprepend, rfl, cstring_eq_panic hpanic⟩
  · cases h

theorem keyAndPrepend_eq_ok {x : Name × Name × List Char} (h : keyAndPrepend delim tokens = .ok x) :
    ∃ key prepend, delim ∉ key ∧ delim ∉ prepend ∧ 0 ∉ narrowed key ∧ 0 ∉ narrowed prepend ∧
      tokens = key ++ delim :: (prepend ++ delim :: x.2.2) := by
  obtain ⟨⟨bytes, tokens₁⟩, htoken, h⟩ := bind_eq_ok.mp h
  obtain ⟨key, hkey, rfl, rfl⟩ := nextToken_eq_ok htoken
  obtain ⟨_, hkeyNul, h⟩ := bind_eq_ok.mp h
  obtain ⟨⟨bytes, tokens₂⟩, htoken, h⟩ := bind_eq_ok.mp h
  obtain ⟨prepend, hprepend, rfl, rfl⟩ := nextToken_eq_ok htoken
  obtain ⟨_, hprependNul, h⟩ := bind_eq_ok.mp h
  cases h
  exact ⟨key, prepend, hkey, hprepend, cstring_eq_ok hkeyNul, cstring_eq_ok hprependNul, rfl⟩

/-- A rule at which the parser panics. -/
theorem hidesNul_of_fromTokens (hdelim : isAsciiWhitespace delim = false)
    (h : fromTokens (delim :: tokens) = .panic p) : HidesNul (delim :: tokens) := by
  obtain ⟨e, herr⟩ | ⟨head, tokens₁, hhead, hfresh, rfl⟩ := fromTokens_head delim tokens
  · rw [herr] at h
    cases h
  rw [fromTokens_of_head hhead hfresh] at h
  obtain hpanic | ⟨_, -, h⟩ := bind_eq_panic.mp h
  · obtain ⟨key, rest, hkey, rfl, hnul | ⟨prepend, rest', hprepend, rfl, hnul⟩⟩ :=
      keyAndPrepend_eq_panic hpanic
    · have hfields : closeFields delim (head ++ [key]) ++ rest =
          closeFields delim head ++ (key ++ delim :: rest) := by
        rw [closeFields_append, closeFields_cons, closeFields_nil, nil_append]
      rw [← hfields]
      refine .key hdelim hhead ?_ hnul
      simpa [or_imp, forall_and] using ⟨hfresh, hkey⟩
    · have hfields : closeFields delim (head ++ [key, prepend]) ++ rest' =
          closeFields delim head ++ (key ++ delim :: (prepend ++ delim :: rest')) := by
        rw [closeFields_append, closeFields_cons, closeFields_cons, closeFields_nil,
          nil_append]
      rw [← hfields]
      refine .prepend hdelim hhead ?_ hnul
      simpa [or_imp, forall_and] using ⟨hfresh, hkey, hprepend⟩
  · cases h

/-- A plain rule that is read. -/
theorem hidesNul_of_rest {tokens rest : List Char} {rule : XattrRule}
    (hdelim : isAsciiWhitespace delim = false)
    (h : fromTokens (delim :: tokens) = .ok (.plain rule, rest)) (hrest : HidesNul rest) :
    HidesNul (delim :: tokens) := by
  obtain ⟨e, herr⟩ | ⟨head, tokens₁, hhead, hfresh, rfl⟩ := fromTokens_head delim tokens
  · rw [herr] at h
    cases h
  rw [fromTokens_of_head hhead hfresh] at h
  obtain ⟨⟨_, _, rest'⟩, hread, hret⟩ := bind_eq_ok.mp h
  obtain ⟨key, prepend, hkey, hprepend, hkeyNul, hprependNul, rfl⟩ := keyAndPrepend_eq_ok hread
  cases hhead with
  | map htype =>
    -- a `map` rule ends the string
    cases hret
  | @plain ty sc type scope htype hscope =>
    obtain rfl : rest' = rest := congrArg Prod.snd (ok.inj hret)
    have hfields : closeFields delim [ty, sc, key, prepend] ++ rest' =
        closeFields delim [ty, sc] ++ (key ++ delim :: (prepend ++ delim :: rest')) := by
      simp only [closeFields_cons, closeFields_nil, nil_append]
    rw [← hfields]
    refine .rule hdelim (.plain type scope htype hscope) ?_ hkeyNul hprependNul hrest
    simpa [or_imp, forall_and, and_assoc] using
      (⟨hfresh ty (by simp), hfresh sc (by simp), hkey, hprepend⟩ :
        delim ∉ ty ∧ delim ∉ sc ∧ delim ∉ key ∧ delim ∉ prepend)

theorem hidesNul_of_rulesLoop (unparsed : List Char) (acc : List XattrRule) :
    rulesLoop unparsed acc = .panic .interiorNul → HidesNul unparsed := by
  induction unparsed, acc using rulesLoop.induct with
  | case1 acc =>
    intro h
    rw [rulesLoop_nil] at h
    cases h
  | case2 acc ch rest hspace ih =>
    intro h
    rw [rulesLoop_space hspace] at h
    exact .space hspace (ih h)
  | case3 acc ch rest hspace e he =>
    intro h
    rw [rulesLoop_err (by simpa using hspace) he] at h
    cases h
  | case4 acc ch rest hspace p hp =>
    intro _
    exact hidesNul_of_fromTokens (by simpa using hspace) hp
  | case5 acc ch rest hspace key prepend rest' hread hrest =>
    intro h
    rw [rulesLoop, if_neg hspace] at h
    split at h <;> simp_all
  | case6 acc ch rest hspace key prepend rest' hread hrest =>
    intro h
    obtain rfl : rest' = [] := not_not.mp hrest
    rw [rulesLoop_map (by simpa using hspace) hread] at h
    cases h
  | case7 acc ch rest hspace rule rest' hread ih =>
    intro h
    rw [rulesLoop_plain (by simpa using hspace) hread] at h
    exact hidesNul_of_rest (by simpa using hspace) hread (ih h)

theorem keyAndPrepend_nul {key : List Char} (hkey : delim ∉ key) (hnul : 0 ∈ narrowed key)
    (rest : List Char) :
    keyAndPrepend delim (key ++ delim :: rest) = .panic .interiorNul := by
  unfold keyAndPrepend
  simp only [nextToken_append hkey, ok_bind, cstring, if_pos hnul, panic_bind]

theorem rulesLoop_of_hidesNul {unparsed : List Char} (h : HidesNul unparsed) :
    ∀ acc, rulesLoop unparsed acc = .panic .interiorNul := by
  induction h with
  | space hspace _ ih =>
    intro acc
    rw [rulesLoop_space hspace, ih]
  | @rule delim ty sc key prepend rest hdelim hhead hfresh hkey hprepend _ ih =>
    intro acc
    have hheadFresh : ∀ f ∈ [ty, sc], delim ∉ f :=
      fun f hf => hfresh f (mem_append_left [key, prepend] hf)
    have hread := fromTokens_of_head hhead hheadFresh (key ++ delim :: (prepend ++ delim :: rest))
    rw [keyAndPrepend_append (hfresh key (by simp)) (hfresh prepend (by simp)),
      if_pos ⟨hkey, hprepend⟩, ok_bind] at hread
    cases hhead with
    | plain type scope htype hscope =>
      simp only [headRule, htype, hscope, Kind.fromBytes_typeWord, Scope.fromBytes_word,
        closeFields_cons, closeFields_nil, nil_append] at hread
      simp only [closeFields_cons, closeFields_nil, nil_append]
      rw [rulesLoop_plain hdelim hread, ih]
  | @key delim head key rest hdelim hhead hfresh hnul =>
    intro acc
    rw [closeFields_append, closeFields_cons, closeFields_nil, nil_append]
    refine rulesLoop_panic hdelim ?_
    rw [fromTokens_of_head hhead fun f hf => hfresh f (mem_append_left _ hf),
      keyAndPrepend_nul (hfresh key (by simp)) hnul, panic_bind]
  | @prepend delim head key prepend rest hdelim hhead hfresh hnul =>
    intro acc
    rw [closeFields_append, closeFields_cons, closeFields_cons, closeFields_nil, nil_append]
    refine rulesLoop_panic hdelim ?_
    rw [fromTokens_of_head hhead fun f hf => hfresh f (mem_append_left _ hf),
      keyAndPrepend_append (hfresh key (by simp)) (hfresh prepend (by simp)),
      if_neg (fun hboth => hboth.2 hnul), panic_bind]

/-- **The parser panics at a hidden NUL**, and nowhere else. -/
theorem tryFrom_safe_iff (input : List Char) : (tryFrom input).Safe ↔ ¬ HidesNul (trim input) := by
  constructor
  · intro hsafe hnul
    refine hsafe .interiorNul ?_
    rw [tryFrom, rulesLoop_of_hidesNul hnul]
  · intro hnul p hpanic
    unfold tryFrom at hpanic
    split at hpanic
    · cases hpanic
    · cases hpanic
    · cases hpanic
    · next hloop => exact hnul (hidesNul_of_rulesLoop _ _ hloop)

/-! ## 5. Keys and prepends that come back -/

/-- All characters are ASCII. -/
def Ascii (field : List Char) : Prop := ∀ ch ∈ field, ch.toNat < 128

theorem utf8EncodeChar_of_ascii (h : ch.toNat < 128) :
    String.utf8EncodeChar ch = [narrow ch] := by
  have hval : ch.val.toNat ≤ 127 := Nat.le_of_lt_succ h
  simp only [String.utf8EncodeChar, if_pos hval]
  rfl

theorem two_le_length_utf8EncodeChar (h : ¬ ch.toNat < 128) :
    2 ≤ (String.utf8EncodeChar ch).length := by
  have hval : ¬ ch.val.toNat ≤ 127 := fun hle => h (Nat.lt_succ_of_le hle)
  simp only [String.utf8EncodeChar, if_neg hval]
  split_ifs <;> simp

theorem length_le_utf8 (field : List Char) : field.length ≤ (utf8 field).length := by
  induction field with
  | nil => exact le_rfl
  | cons ch field ih =>
    have hone : 1 ≤ (String.utf8EncodeChar ch).length := by
      by_cases h : ch.toNat < 128
      · rw [utf8EncodeChar_of_ascii h, length_singleton]
      · exact Nat.le_of_succ_le (two_le_length_utf8EncodeChar h)
    simp only [utf8, flatMap_cons, length_append, length_cons] at ih ⊢
    omega

/-- **A field is kept byte for byte** exactly if it is ASCII. -/
theorem narrowed_eq_utf8_iff (field : List Char) : narrowed field = utf8 field ↔ Ascii field := by
  induction field with
  | nil => simp [narrowed, utf8, Ascii]
  | cons ch field ih =>
    by_cases h : ch.toNat < 128
    · have hcons : narrowed (ch :: field) = utf8 (ch :: field) ↔ narrowed field = utf8 field := by
        simp only [narrowed, utf8, map_cons, flatMap_cons, utf8EncodeChar_of_ascii h,
          singleton_append, cons.injEq, true_and]
      rw [hcons, ih]
      simp [Ascii, h]
    · -- more bytes than characters
      refine iff_of_false (fun heq => ?_) fun hascii => h (hascii ch mem_cons_self)
      have hlen := congrArg List.length heq
      have hfield := length_le_utf8 field
      have htwo := two_le_length_utf8EncodeChar h
      simp only [narrowed, utf8, flatMap_cons, length_append, length_map,
        length_cons] at hlen hfield
      omega

theorem narrowed_eq_nil : narrowed field = [] ↔ field = [] :=
  map_eq_nil_iff

theorem utf8_eq_nil : utf8 field = [] ↔ field = [] := by
  constructor
  · intro h
    have hlen := length_le_utf8 field
    rw [h] at hlen
    exact eq_nil_of_length_eq_zero (Nat.le_zero.mp hlen)
  · rintro rfl
    rfl

namespace RuleText

def Ascii (t : RuleText) : Prop := XattrMap.Ascii t.key ∧ XattrMap.Ascii t.prepend

/-- A rule stands for as many rules in either encoding. -/
theorem length_rules (t : RuleText) :
    (t.rules narrowed).length = (t.rules utf8).length := by
  cases t with
  | plain => rfl
  | map key prepend =>
    by_cases hkey : key = []
    · subst hkey
      rfl
    · have hnarrowed : narrowed key ≠ [] := fun h => hkey (narrowed_eq_nil.mp h)
      have hutf8 : utf8 key ≠ [] := fun h => hkey (utf8_eq_nil.mp h)
      simp [rules, expandMapType, hnarrowed, hutf8]

theorem rules_eq_iff (t : RuleText) : t.rules narrowed = t.rules utf8 ↔ t.Ascii := by
  constructor
  · intro h
    have hfields : narrowed t.key = utf8 t.key ∧ narrowed t.prepend = utf8 t.prepend := by
      cases t with
      | plain => simpa [rules, RuleText.key, RuleText.prepend] using h
      | map key prepend =>
        have hfirst := congrArg List.head? h
        simp only [rules, expandMapType] at hfirst
        split at hfirst <;> split at hfirst <;>
          simpa [RuleText.key, RuleText.prepend] using hfirst
    exact ⟨(narrowed_eq_utf8_iff _).mp hfields.1, (narrowed_eq_utf8_iff _).mp hfields.2⟩
  · rintro ⟨hkey, hprepend⟩
    have hkey' := (narrowed_eq_utf8_iff _).mpr hkey
    have hprepend' := (narrowed_eq_utf8_iff _).mpr hprepend
    cases t with
    | plain _ _ key prepend | map key prepend =>
      simp only [RuleText.key, RuleText.prepend] at hkey' hprepend'
      rw [rules, rules, hkey', hprepend']

end RuleText

theorem flatMap_rules_eq_iff (rules : List Written) :
    rules.flatMap (·.text.rules narrowed) = rules.flatMap (·.text.rules utf8) ↔
      ∀ r ∈ rules, r.text.Ascii := by
  induction rules with
  | nil => simp
  | cons r rules ih =>
    rw [flatMap_cons, flatMap_cons, forall_mem_cons, ← ih,
      ← RuleText.rules_eq_iff]
    constructor
    · intro h
      exact append_inj h r.text.length_rules
    · rintro ⟨hrule, hrules⟩
      rw [hrule, hrules]

/-- An ASCII rule has no hidden NUL. -/
theorem Written.narrows {r : Written} (h : r.text.Ascii) : r.text.Narrows := by
  have hfield : ∀ field ∈ r.text.fields, Ascii field → 0 ∉ narrowed field := by
    intro field hmem hascii hnul
    obtain ⟨ch, hch, hzero⟩ := mem_map.mp hnul
    have hlt := hascii ch hch
    have hnat : ch.toNat = 0 := by
      have hval := congrArg UInt8.toNat hzero
      simp only [narrow, UInt8.toNat_ofNat'] at hval
      change ch.toNat % 256 = 0 at hval
      omega
    refine r.nulFree field hmem ?_
    rw [← hnat, Char.ofNat_toNat]
    exact hch
  exact ⟨hfield _ (by simp [RuleText.fields]) h.1, hfield _ (by simp [RuleText.fields]) h.2⟩

/-- **A list of rules, written**, with white space behind it. -/
structure Rendering where
  rules : List Written
  trailing : List Char
  mapLast : MapLast rules
  trailing_ascii : ∀ ch ∈ trailing, isAsciiWhitespace ch = true

namespace Rendering

def chars (r : Rendering) : List Char := charsOf r.rules ++ r.trailing

/-- The rules, with keys and prepends as they were written. -/
def map (r : Rendering) : XattrMap := ⟨r.rules.flatMap (·.text.rules utf8)⟩

theorem tryFrom_eq_iff (r : Rendering) :
    tryFrom r.chars = .ok r.map ↔ r.rules ≠ [] ∧ ∀ w ∈ r.rules, w.text.Ascii := by
  by_cases hne : r.rules = []
  · -- `NoRulesProvided`
    refine iff_of_false (fun h => ?_) fun h => h.1 hne
    have hspace : r.trailing.dropWhile isWhitespace = [] :=
      dropWhile_eq_nil_iff.mpr fun ch hch => isWhitespace_of_ascii (r.trailing_ascii ch hch)
    have hnil : trim r.chars = [] := by
      simp [trim, chars, charsOf, hne, hspace]
    rw [tryFrom, hnil, rulesLoop_nil] at h
    cases h
  · rw [chars, tryFrom_charsOf hne r.mapLast r.trailing_ascii]
    constructor
    · intro h
      split at h
      · refine ⟨hne, (flatMap_rules_eq_iff _).mp ?_⟩
        exact congrArg XattrMap.rules (ok.inj h)
      · cases h
    · rintro ⟨-, hascii⟩
      rw [if_pos fun w hw => Written.narrows (hascii w hw), (flatMap_rules_eq_iff _).mpr hascii]
      rfl

end Rendering

/-- **The parser is faithful to ASCII rules, and to no others.**  It does not panic exactly if no
key or prepend it comes to has a NUL among its low bytes; and it reads back what was written
exactly if there is a rule and all keys and prepends are ASCII. -/
theorem tryFrom_chars_iff (input : List Char) :
    ((tryFrom input).Safe ↔ ¬ HidesNul (trim input)) ∧
      ∀ r : Rendering, tryFrom r.chars = .ok r.map ↔
        r.rules ≠ [] ∧ ∀ w ∈ r.rules, w.text.Ascii :=
  ⟨tryFrom_safe_iff input, Rendering.tryFrom_eq_iff⟩

/-- One `ok` rule for all names with a key of one character. -/
def okRule (key : Char) (hfresh : key ≠ ':') (hnul : key ≠ Char.ofNat 0) : Rendering where
  rules := [
    { space := []
      delim := ':'
      text := .plain .okay .all [key] []
      space_ascii := by simp
      delim_dark := by decide
      delim_fresh := by
        simpa [RuleText.fields, RuleText.head, RuleText.key, RuleText.prepend, typeWord,
          Scope.word, okWord, allWord] using hfresh.symm
      nulFree := by
        simpa [RuleText.fields, RuleText.head, RuleText.key, RuleText.prepend, typeWord,
          Scope.word, okWord, allWord] using hnul.symm }]
  trailing := []
  mapLast := by simp [MapLast]
  trailing_ascii := by simp

/-- The rule `:ok:all:Ā::` makes the parser panic, and `:ok:all:é::` is read as a rule for
another key. -/
theorem non_ascii_rules_misread :
    (okRule 'Ā' (by decide) (by decide)).chars = ":ok:all:Ā::".toList ∧
    tryFrom ":ok:all:Ā::".toList = .panic .interiorNul ∧
    (okRule 'é' (by decide) (by decide)).chars = ":ok:all:é::".toList ∧
    (okRule 'é' (by decide) (by decide)).map = ⟨[⟨true, true, .okay, [0xc3, 0xa9], []⟩]⟩ ∧
    tryFrom ":ok:all:é::".toList = .ok ⟨[⟨true, true, .okay, [0xe9], []⟩]⟩ := by
  have hparse (key : Char) (hfresh : key ≠ ':') (hnul : key ≠ Char.ofNat 0) :=
    tryFrom_charsOf (List.cons_ne_nil _ _) (okRule key hfresh hnul).mapLast
      (okRule key hfresh hnul).trailing_ascii
  refine ⟨by decide, ?_, by decide, congrArg XattrMap.mk (by decide), ?_⟩
  · exact (hparse 'Ā' (by decide) (by decide)).trans (if_neg (by decide))
  · exact (hparse 'é' (by decide) (by decide)).trans (if_pos (by decide))

end XattrMap

end Virtiofsd
