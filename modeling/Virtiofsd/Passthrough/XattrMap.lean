/-
  # Maps for extended attributes (`xattrmap.rs`)

  The user gives the map as a string of rules.  A rule is read up to its own delimiter, field by
  field; `map` is short for two or three other rules (`expandMapType`).  `Config.lean` has what is
  done with the rules: the first one that matches a name is applied, to a name of the guest by
  its `key`, to a name of the host by its `prepend`.

  What such a map is for:

  * the names of the guest reach different attributes, and only those that the map is for reach
    the ones behind `prepend` (`map_rule_partitions_names`);
  * what is listed is what can be reached (`listed_names_reachable_iff`).  This is so EXACTLY if
    all that the host has behind `prepend` has `key` next: the list shows the rest without a look
    at it;
  * every name finds a rule (`rule_for_every_iff`).  The parser leaves that to the user:
    it accepts every list of rules but the empty one.
-/
import Virtiofsd.Passthrough.Ledger
import Mathlib

namespace Virtiofsd

open Lib List

namespace XattrMap

/-! ## 1. The parser -/

/-- `xattrmap::ErrorKind`.  `got` are the bytes as they were read; they are shown with
`from_utf8_lossy`. -/
inductive ErrorKind where
  | invalidScope (got : List UInt8) (expected : String)
  | invalidType (got : List UInt8) (expected : String)
  | invalidDelimiter
  | incompleteRule
  | mapRuleViolation
  | noRulesProvided
  | unterminatedMapping
  deriving DecidableEq

/-- `xattrmap::Error`: the number of the rule, if it is one rule's fault. -/
structure Error where
  cause : ErrorKind
  rule : Option Nat
  deriving DecidableEq

/-- The panic of the parser: `CString::new(..).unwrap()`. -/
inductive Panic where
  | interiorNul
  deriving DecidableEq

abbrev Parse (α : Type) := Outcome ErrorKind Panic α

/-- `ch as u8`. -/
def narrow (ch : Char) : UInt8 := UInt8.ofNat ch.toNat

/-- The words for the types and the scopes. -/
def prefixWord : List Char := ['p', 'r', 'e', 'f', 'i', 'x']
def okWord : List Char := ['o', 'k']
def badWord : List Char := ['b', 'a', 'd']
def unsupportedWord : List Char := ['u', 'n', 's', 'u', 'p', 'p', 'o', 'r', 't', 'e', 'd']
def mapWord : List Char := ['m', 'a', 'p']
def allWord : List Char := ['a', 'l', 'l']
def clientWord : List Char := ['c', 'l', 'i', 'e', 'n', 't']
def serverWord : List Char := ['s', 'e', 'r', 'v', 'e', 'r']

/-- `xattrmap::Type`, with `Map`. -/
inductive Kind where
  | plain (type : XattrRuleType)
  | map
  deriving DecidableEq

/-- `Type::from_bytes`. -/
def Kind.fromBytes (bytes : List UInt8) : Parse Kind :=
  if bytes = prefixWord.map narrow then .ok (.plain .addPrefix)
  else if bytes = okWord.map narrow then .ok (.plain .okay)
  else if bytes = badWord.map narrow then .ok (.plain .bad)
  else if bytes = unsupportedWord.map narrow then .ok (.plain .unsupported)
  else if bytes = mapWord.map narrow then .ok .map
  else .err (.invalidType bytes "prefix, ok, bad, map")

/-- `Scope`: one direction, or both. -/
inductive Scope where
  | all
  | client
  | server
  deriving DecidableEq

/-- `Scope::contains`. -/
def Scope.isClient : Scope → Bool
  | .server => false
  | _ => true

def Scope.isServer : Scope → Bool
  | .client => false
  | _ => true

/-- `Scope::from_bytes`. -/
def Scope.fromBytes (bytes : List UInt8) : Parse Scope :=
  if bytes = allWord.map narrow then .ok .all
  else if bytes = clientWord.map narrow then .ok .client
  else if bytes = serverWord.map narrow then .ok .server
  else .err (.invalidScope bytes "all, client, server")

/-- `next_token`: the bytes up to the delimiter, and what is behind it. -/
def nextToken (delim : Char) : List Char → Parse (List UInt8 × List Char)
  | [] => .err .incompleteRule
  | ch :: tokens =>
    if ch ≠ delim then do
      let (bytes, rest) ← nextToken delim tokens
      return (narrow ch :: bytes, rest)
    else return ([], tokens)

/-- `CString::new(bytes).unwrap()`. -/
def cstring (bytes : List UInt8) : Parse Name :=
  if 0 ∈ bytes then .panic .interiorNul else .ok bytes

/-- The last two fields of a rule. -/
def keyAndPrepend (delim : Char) (tokens : List Char) : Parse (Name × Name × List Char) := do
  let (bytes, tokens) ← nextToken delim tokens
  let key ← cstring bytes
  let (bytes, tokens) ← nextToken delim tokens
  let prepend ← cstring bytes
  return (key, prepend, tokens)

/-- A rule as it is written. -/
inductive RawRule where
  | plain (r : XattrRule)
  | map (key prepend : Name)
  deriving DecidableEq

/-- **`Rule::from_tokens`**, with the tokens that are left. -/
def fromTokens : List Char → Parse (RawRule × List Char)
  | [] => .err .invalidDelimiter
  | delim :: tokens => do
    let (bytes, tokens) ← nextToken delim tokens
    match ← Kind.fromBytes bytes with
    | .map => do
      let (key, prepend, tokens) ← keyAndPrepend delim tokens
      return (.map key prepend, tokens)
    | .plain type => do
      let (bytes, tokens) ← nextToken delim tokens
      let scope ← Scope.fromBytes bytes
      let (key, prepend, tokens) ← keyAndPrepend delim tokens
      return (.plain ⟨scope.isClient, scope.isServer, type, key, prepend⟩, tokens)

/-- **`Rule::expand_map_type`.** -/
def expandMapType (key prepend : Name) : List XattrRule :=
  let first : XattrRule := ⟨true, true, .addPrefix, key, prepend⟩
  if key ≠ [] then [first, ⟨true, true, .bad, prepend, key⟩, ⟨true, true, .okay, [], []⟩]
  else [first, ⟨true, true, .bad, [], []⟩]

theorem nextToken_length {delim : Char} {bytes : List UInt8} {rest : List Char} :
    ∀ {tokens : List Char}, nextToken delim tokens = .ok (bytes, rest) →
      rest.length < tokens.length := by
  intro tokens
  induction tokens generalizing bytes with
  | nil => intro h; cases h
  | cons ch tokens ih =>
    intro h
    unfold nextToken at h
    split at h
    · obtain ⟨⟨bytes', rest'⟩, htail, hret⟩ := Outcome.bind_eq_ok.mp h
      cases hret
      exact (ih htail).trans (Nat.lt_succ_self _)
    · cases h
      exact Nat.lt_succ_self _

theorem keyAndPrepend_length {delim : Char} {key prepend : Name} {tokens rest : List Char}
    (h : keyAndPrepend delim tokens = .ok (key, prepend, rest)) : rest.length < tokens.length := by
  obtain ⟨⟨bytes, tokens₁⟩, hkey, h⟩ := Outcome.bind_eq_ok.mp h
  obtain ⟨_, -, h⟩ := Outcome.bind_eq_ok.mp h
  obtain ⟨⟨bytes', tokens₂⟩, hprepend, h⟩ := Outcome.bind_eq_ok.mp h
  obtain ⟨_, -, h⟩ := Outcome.bind_eq_ok.mp h
  cases h
  exact (nextToken_length hprepend).trans (nextToken_length hkey)

/-- A rule takes up some of the string. -/
theorem fromTokens_length {r : RawRule} {tokens rest : List Char}
    (h : fromTokens tokens = .ok (r, rest)) : rest.length < tokens.length := by
  cases tokens with
  | nil => cases h
  | cons delim tokens =>
    obtain ⟨⟨bytes, tokens₁⟩, htype, h⟩ := Outcome.bind_eq_ok.mp h
    have hlen := nextToken_length htype
    obtain ⟨kind, -, h⟩ := Outcome.bind_eq_ok.mp h
    cases kind with
    | map =>
      obtain ⟨⟨_, _, tokens₂⟩, hlast, h⟩ := Outcome.bind_eq_ok.mp h
      cases h
      have := keyAndPrepend_length hlast
      simp only [length_cons]
      omega
    | plain type =>
      obtain ⟨⟨_, tokens₂⟩, hscope, h⟩ := Outcome.bind_eq_ok.mp h
      obtain ⟨_, -, h⟩ := Outcome.bind_eq_ok.mp h
      obtain ⟨⟨_, _, tokens₃⟩, hlast, h⟩ := Outcome.bind_eq_ok.mp h
      cases h
      have := nextToken_length hscope
      have := keyAndPrepend_length hlast
      simp only [length_cons]
      omega

/-- `char::is_ascii_whitespace`. -/
def isAsciiWhitespace (ch : Char) : Bool := ch.toNat ∈ [0x09, 0x0a, 0x0c, 0x0d, 0x20]

/-- `char::is_whitespace`. -/
def isWhitespace (ch : Char) : Bool :=
  ch.toNat ∈ [0x09, 0x0a, 0x0b, 0x0c, 0x0d, 0x20, 0x85, 0xa0, 0x1680, 0x2028, 0x2029, 0x202f,
    0x205f, 0x3000] || (0x2000 ≤ ch.toNat && ch.toNat ≤ 0x200a)

/-- `str::trim`. -/
def trim (input : List Char) : List Char :=
  (input.dropWhile isWhitespace).rdropWhile isWhitespace

/-- The loop of `try_from` over the rules. -/
def rulesLoop (unparsed : List Char) (rules : List XattrRule) :
    Outcome Error Panic (List XattrRule) :=
  match unparsed with
  | [] => .ok rules
  | ch :: unparsed' =>
    if isAsciiWhitespace ch then rulesLoop unparsed' rules
    else
      match h : fromTokens (ch :: unparsed') with
      | .err e => .err ⟨e, some (rules.length + 1)⟩
      | .panic p => .panic p
      | .ok (.map key prepend, rest) =>
        -- There may only be one `map` rule, and it must be the last one.
        if rest ≠ [] then .err ⟨.mapRuleViolation, some (rules.length + 1)⟩
        else .ok (rules ++ expandMapType key prepend)
      | .ok (.plain rule, rest) => rulesLoop rest (rules ++ [rule])
termination_by unparsed.length
decreasing_by
  · exact Nat.lt_succ_self _
  · exact fromTokens_length h

section Loop

variable {ch : Char} {unparsed rest : List Char} {rules : List XattrRule}

theorem rulesLoop_nil (rules : List XattrRule) : rulesLoop [] rules = .ok rules := by
  rw [rulesLoop]

theorem rulesLoop_space (hspace : isAsciiWhitespace ch = true) :
    rulesLoop (ch :: unparsed) rules = rulesLoop unparsed rules := by
  rw [rulesLoop, if_pos hspace]

section

variable (hspace : isAsciiWhitespace ch = false)

include hspace

theorem rulesLoop_plain {rule : XattrRule}
    (h : fromTokens (ch :: unparsed) = .ok (.plain rule, rest)) :
    rulesLoop (ch :: unparsed) rules = rulesLoop rest (rules ++ [rule]) := by
  rw [rulesLoop, if_neg (by simp [hspace])]
  split <;> simp_all

theorem rulesLoop_map {key prepend : Name}
    (h : fromTokens (ch :: unparsed) = .ok (.map key prepend, [])) :
    rulesLoop (ch :: unparsed) rules = .ok (rules ++ expandMapType key prepend) := by
  rw [rulesLoop, if_neg (by simp [hspace])]
  split <;> simp_all

theorem rulesLoop_err {e : ErrorKind} (h : fromTokens (ch :: unparsed) = .err e) :
    rulesLoop (ch :: unparsed) rules = .err ⟨e, some (rules.length + 1)⟩ := by
  rw [rulesLoop, if_neg (by simp [hspace])]
  split <;> simp_all

theorem rulesLoop_panic {p : Panic} (h : fromTokens (ch :: unparsed) = .panic p) :
    rulesLoop (ch :: unparsed) rules = .panic p := by
  rw [rulesLoop, if_neg (by simp [hspace])]
  split <;> simp_all

end

end Loop

/-- **`TryFrom<&str> for XattrMap`.** -/
def tryFrom (input : List Char) : Outcome Error Panic XattrMap :=
  match rulesLoop (trim input) [] with
  | .ok [] => .err ⟨.noRulesProvided, none⟩
  | .ok rules => .ok ⟨rules⟩
  | .err e => .err e
  | .panic p => .panic p

/-! ## 2. One `map` rule -/

/-- **The map that is one rule, `:map:key:prepend:`.** -/
def ofMapRule (key prepend : Name) : XattrMap := ⟨expandMapType key prepend⟩

section MapRule

variable (key prepend : Name)

/-- What the rule does with a name of the guest. -/
theorem mapClientXattr_ofMapRule (n : Name) :
    (ofMapRule key prepend).mapClientXattr n = some (if key <+: n then .pass (prepend ++ n)
      else if prepend <+: n then .deny else .pass n) := by
  by_cases hempty : key = []
  · simp [ofMapRule, expandMapType, mapClientXattr, XattrRule.matchesClient, hempty]
  · by_cases hkey : key <+: n <;> by_cases hprepend : prepend <+: n <;>
      simp [ofMapRule, expandMapType, mapClientXattr, XattrRule.matchesClient, hempty,
        hkey, hprepend]

/-- What it does with a name of the host. -/
theorem mapServerXattr_ofMapRule (h : Name) :
    (ofMapRule key prepend).mapServerXattr h = some (if prepend <+: h
      then some (h.drop prepend.length) else if key <+: h then none else some h) := by
  by_cases hempty : key = []
  · by_cases hprepend : prepend <+: h <;>
      simp [ofMapRule, expandMapType, mapServerXattr, XattrRule.matchesServer, hempty,
        hprepend]
  · by_cases hkey : key <+: h <;> by_cases hprepend : prepend <+: h <;>
      simp [ofMapRule, expandMapType, mapServerXattr, XattrRule.matchesServer, hempty,
        hkey, hprepend]

variable {key prepend}

/-- The two ways to reach an attribute. -/
theorem mapClientXattr_ofMapRule_pass {n h : Name} :
    (ofMapRule key prepend).mapClientXattr n = some (.pass h) ↔
      key <+: n ∧ h = prepend ++ n ∨ ¬ key <+: n ∧ ¬ prepend <+: n ∧ h = n := by
  rw [mapClientXattr_ofMapRule]
  by_cases hkey : key <+: n <;> by_cases hprepend : prepend <+: n <;>
    simp [hkey, hprepend, eq_comm]

/-- **The names of the guest are kept apart.**  Only names with `key` reach what is behind
`prepend`, and no two names reach the same attribute. -/
theorem map_rule_partitions_names :
    (∀ n h, (ofMapRule key prepend).mapClientXattr n = some (.pass h) → prepend <+: h →
      key <+: n ∧ h = prepend ++ n) ∧
    (∀ n n' h, (ofMapRule key prepend).mapClientXattr n = some (.pass h) →
      (ofMapRule key prepend).mapClientXattr n' = some (.pass h) → n = n') ∧
    ∀ n h, ¬ key <+: n → (ofMapRule key prepend).mapClientXattr n = some (.pass h) →
      ¬ prepend <+: h := by
  have hbehind : ∀ n h, (ofMapRule key prepend).mapClientXattr n = some (.pass h) →
      prepend <+: h → key <+: n ∧ h = prepend ++ n := by
    intro n h hpass hprepend
    rcases mapClientXattr_ofMapRule_pass.mp hpass with hkey | ⟨-, hnot, rfl⟩
    · exact hkey
    · exact absurd hprepend hnot
  refine ⟨hbehind, ?_, ?_⟩
  · intro n n' h hpass hpass'
    by_cases hprepend : prepend <+: h
    · have hn := (hbehind n h hpass hprepend).2
      have hn' := (hbehind n' h hpass' hprepend).2
      exact append_cancel_left (hn.symm.trans hn')
    · -- outside, names are passed as they are
      have houtside : ∀ m, (ofMapRule key prepend).mapClientXattr m = some (.pass h) → h = m := by
        intro m hm
        rcases mapClientXattr_ofMapRule_pass.mp hm with ⟨-, rfl⟩ | ⟨-, -, rfl⟩
        · exact absurd (prefix_append prepend m) hprepend
        · rfl
      exact (houtside n hpass).symm.trans (houtside n' hpass')
  · intro n h hkey hpass hprepend
    exact hkey (hbehind n h hpass hprepend).1

end MapRule

/-! ## 3. Listing attributes -/

/-- What the guest is shown for a name of the host; the empty name is none. -/
def shown (m : XattrMap) (h : Name) : Option Name := (m.mapServerXattr h).join.filter (· ≠ [])

/-- **What is listed is what can be reached**: the names in the reply differ, each of them leads
to the attribute it stands for, and no name that leads to an attribute is missing. -/
structure ListsReachable (m : XattrMap) (hosts : List Name) (reply : List UInt8) : Prop where
  names : splitNames reply = hosts.filterMap m.shown
  distinct : (splitNames reply).Nodup
  reachable : ∀ h ∈ hosts, ∀ n, m.shown h = some n → m.mapClientXattr n = some (.pass h)
  complete : ∀ n h, n ≠ [] → m.mapClientXattr n = some (.pass h) → h ∈ hosts →
    n ∈ splitNames reply

theorem splitNames_cons {n : Name} (h : 0 ∉ n) (rest : List UInt8) :
    splitNames (n ++ 0 :: rest) = (if n = [] then [] else [n]) ++ splitNames rest := by
  have hsplit : (n ++ 0 :: rest).splitOn 0 = n :: rest.splitOn 0 := by
    refine splitOnP_append_cons_of_forall_mem (fun x hx => ?_) 0 (by simp) rest
    rw [beq_eq_false_iff_ne]
    rintro rfl
    exact h hx
  rw [splitNames, hsplit, filter_cons]
  by_cases hn : n = [] <;> simp [hn, splitNames]

/-- The names come apart again, without the empty ones. -/
theorem splitNames_joinNames {names : List Name} (h : ∀ n ∈ names, 0 ∉ n) :
    splitNames (joinNames names) = names.filter (· ≠ []) := by
  induction names with
  | nil => rfl
  | cons n names ih =>
    obtain ⟨hn, hrest⟩ := forall_mem_cons.mp h
    have hjoin : joinNames (n :: names) = n ++ 0 :: joinNames names := by
      simp [joinNames]
    rw [hjoin, splitNames_cons hn, ih hrest, filter_cons]
    by_cases hempty : n = [] <;> simp [hempty]

variable {m : XattrMap}

/-- **The reply to LISTXATTR**, of a map that has a rule for every name. -/
theorem mapServerXattrlist_joinNames {show_ : Name → Option Name}
    (hrule : ∀ h, m.mapServerXattr h = some (show_ h)) {hosts : List Name}
    (hnames : ∀ h ∈ hosts, h ≠ [] ∧ 0 ∉ h) (hshow : ∀ h n, 0 ∉ h → show_ h = some n → 0 ∉ n) :
    ∃ reply, m.mapServerXattrlist (joinNames hosts) = some reply ∧
      splitNames reply = hosts.filterMap m.shown := by
  have hhosts : splitNames (joinNames hosts) = hosts := by
    rw [splitNames_joinNames fun h hh => (hnames h hh).2, filter_eq_self]
    exact fun h hh => by simpa using (hnames h hh).1
  have hfun : m.mapServerXattr = fun h => pure (show_ h) := funext hrule
  have hshown : ∀ n ∈ (hosts.map show_).reduceOption, 0 ∉ n := by
    intro n hn
    obtain ⟨_, hmem, rfl⟩ := mem_filterMap.mp hn
    obtain ⟨h, hh, hn⟩ := mem_map.mp hmem
    exact hshow h n (hnames h hh).2 hn
  have hlist : (hosts.map show_).reduceOption.filter (· ≠ []) = hosts.filterMap m.shown := by
    rw [reduceOption, filterMap_map, filter_filterMap]
    refine filterMap_congr fun h _ => ?_
    simp [shown, hrule]
  refine ⟨_, by rw [mapServerXattrlist, hhosts, hfun, mapM_pure]; rfl, ?_⟩
  dsimp only
  split
  · rename_i hnone
    have hsplit := splitNames_joinNames hshown
    rw [hnone, hlist] at hsplit
    rw [← hsplit]
    rfl
  · rw [splitNames_joinNames hshown, hlist]

section MapRule

variable {key prepend : Name}

theorem shown_ofMapRule {h n : Name} : (ofMapRule key prepend).shown h = some n ↔
    n ≠ [] ∧ (h = prepend ++ n ∨ ¬ prepend <+: h ∧ ¬ key <+: h ∧ h = n) := by
  rw [shown, mapServerXattr_ofMapRule]
  by_cases hprepend : prepend <+: h
  · obtain ⟨rest, rfl⟩ := hprepend
    simp only [prefix_append, if_true, drop_left, Option.join_some,
      Option.filter_eq_some_iff, Option.some.injEq, decide_eq_true_eq, append_cancel_left_eq,
      not_true_eq_false, false_and, or_false]
    constructor
    · rintro ⟨rfl, hn⟩
      exact ⟨hn, rfl⟩
    · rintro ⟨hn, rfl⟩
      exact ⟨rfl, hn⟩
  · have hnot : h ≠ prepend ++ n := fun heq => hprepend (heq ▸ prefix_append _ _)
    by_cases hkey : key <+: h
    · simp [hprepend, hkey, hnot]
    · simp only [hprepend, hkey, if_false, Option.join_some, Option.filter_eq_some_iff,
        Option.some.injEq, decide_eq_true_eq, hnot, not_false_eq_true, true_and, false_or]
      constructor
      · rintro ⟨rfl, hn⟩
        exact ⟨hn, rfl⟩
      · rintro ⟨hn, rfl⟩
        exact ⟨rfl, hn⟩

/-- **When what is listed can be reached**: exactly if whatever the host has behind `prepend` has
`key` next. -/
theorem listed_names_reachable_iff (key prepend : Name) {hosts : List Name}
    (hnames : ∀ h ∈ hosts, h ≠ [] ∧ 0 ∉ h) (hnodup : hosts.Nodup) :
    (∃ reply, (ofMapRule key prepend).mapServerXattrlist (joinNames hosts) = some reply ∧
      ListsReachable (ofMapRule key prepend) hosts reply) ↔
      ∀ rest, rest ≠ [] → prepend ++ rest ∈ hosts → key <+: rest := by
  constructor
  · rintro ⟨reply, -, hlists⟩ rest hrest hhost
    have hpass := hlists.reachable _ hhost rest (shown_ofMapRule.mpr ⟨hrest, .inl rfl⟩)
    rcases mapClientXattr_ofMapRule_pass.mp hpass with ⟨hkey, -⟩ | ⟨-, hnot, heq⟩
    · exact hkey
    · -- then `prepend` is empty, and every name has it
      have hnil : prepend = [] := append_left_eq_self.mp heq
      exact absurd (hnil ▸ nil_prefix) hnot
  · intro hbehind
    have hshow : ∀ h n, 0 ∉ h → (if prepend <+: h then some (h.drop prepend.length)
        else if key <+: h then none else some h) = some n → 0 ∉ n := by
      intro h n hzero hn
      split at hn
      · cases hn
        exact fun hmem => hzero (mem_of_mem_drop hmem)
      · split at hn
        · cases hn
        · cases hn
          exact hzero
    obtain ⟨reply, hreply, hsplit⟩ :=
      mapServerXattrlist_joinNames (mapServerXattr_ofMapRule key prepend) hnames hshow
    have hreachable : ∀ h ∈ hosts, ∀ n, (ofMapRule key prepend).shown h = some n →
        (ofMapRule key prepend).mapClientXattr n = some (.pass h) := by
      intro h hh n hn
      obtain ⟨hne, rfl | ⟨hprepend, hkey, rfl⟩⟩ := shown_ofMapRule.mp hn
      · exact mapClientXattr_ofMapRule_pass.mpr (.inl ⟨hbehind n hne hh, rfl⟩)
      · exact mapClientXattr_ofMapRule_pass.mpr (.inr ⟨hkey, hprepend, rfl⟩)
    refine ⟨reply, hreply, hsplit, ?_, hreachable, ?_⟩
    · -- the host's name can be read off the one that is shown
      rw [hsplit, List.Nodup, pairwise_filterMap]
      refine hnodup.imp_of_mem fun {h h'} hh hh' hne n hn n' hn' heq => hne ?_
      have hpass := hreachable h hh n hn
      rw [heq, hreachable h' hh' n' hn'] at hpass
      cases hpass
      rfl
    · intro n h hn hpass hh
      rw [hsplit, mem_filterMap]
      refine ⟨h, hh, shown_ofMapRule.mpr ⟨hn, ?_⟩⟩
      rcases mapClientXattr_ofMapRule_pass.mp hpass with ⟨-, rfl⟩ | ⟨hkey, hprepend, rfl⟩
      · exact .inl rfl
      · exact .inr ⟨hprepend, hkey, rfl⟩

/-- Two names of the host, with `trusted.` remapped behind `user.`. -/
theorem listed_names_reachable_remapped :
    ∃ reply, (ofMapRule [116, 46] [117, 46]).mapServerXattrlist
        (joinNames [[117, 46, 116, 46, 97], [98]]) = some reply ∧
      ListsReachable (ofMapRule [116, 46] [117, 46]) [[117, 46, 116, 46, 97], [98]] reply := by
  refine (listed_names_reachable_iff [116, 46] [117, 46] (by decide) (by decide)).mpr ?_
  intro rest hrest hhost
  rcases mem_cons.mp hhost with heq | hmem
  · cases heq
    decide
  · cases mem_singleton.mp hmem

/-- **A listed name that leads nowhere.**  The host has `user.a` and `a`, and the map is
`:map:trusted.:user.:` (with shorter names here).  The guest is shown `a` twice; the attribute
that it can reach by that name is one of the two. -/
theorem listed_names_unreachable :
    let m := ofMapRule [116, 46] [117, 46]
    let hosts : List Name := [[117, 46, 97], [97]]
    hosts.Nodup ∧ (m.mapServerXattrlist (joinNames hosts)).map splitNames = some [[97], [97]] ∧
      m.shown [117, 46, 97] = some [97] ∧ m.mapClientXattr [97] = some (.pass [97]) ∧
      ¬ ∃ reply, m.mapServerXattrlist (joinNames hosts) = some reply ∧
        ListsReachable m hosts reply := by
  intro m hosts
  have hshown : m.shown [117, 46, 97] = some [97] := by decide
  refine ⟨by decide, by decide, hshown, by decide, ?_⟩
  rintro ⟨reply, -, hlists⟩
  have hpass := hlists.reachable [117, 46, 97] (by decide) [97] hshown
  exact absurd hpass (by decide)

end MapRule

/-! ## 4. A rule for every name -/

/-- **There is a rule for every name**, of the guest and of the host, and no request panics for
want of one. -/
structure RuleForEvery (m : XattrMap) : Prop where
  client : ∀ n, (m.mapClientXattr n).isSome
  server : ∀ names, (m.mapServerXattrlist names).isSome
  requests : ∀ cfg : Config, cfg.xattrmap = some m → ∀ name names,
    Meets (fun _ _ => True) (· ≠ .unterminatedMapping)
      (PassthroughFs.mapClientXattrname cfg name) (fun _ => True) ∧
    Meets (fun _ _ => True) (· ≠ .unterminatedMapping)
      (PassthroughFs.mapServerXattrlist cfg names) fun _ => True

/-- **The rules end with something for every name**: for names of the guest, a rule with an empty
key; for names of the host, rules for every first byte. -/
structure Terminated (m : XattrMap) : Prop where
  client : ∃ r ∈ m.rules, r.client = true ∧ r.key = []
  server : ∀ b : UInt8, b ≠ 0 → ∃ r ∈ m.rules, r.server = true ∧ (r.prepend = [] ∨ r.prepend = [b])

theorem mapClientXattr_isSome {n : Name} :
    (m.mapClientXattr n).isSome ↔ ∃ r ∈ m.rules, r.client = true ∧ r.key <+: n := by
  rw [mapClientXattr, Option.isSome_map, find?_isSome]
  simp [XattrRule.matchesClient]

theorem mapServerXattr_isSome {n : Name} :
    (m.mapServerXattr n).isSome ↔ ∃ r ∈ m.rules, r.server = true ∧ r.prepend <+: n := by
  rw [mapServerXattr, Option.isSome_map, find?_isSome]
  simp [XattrRule.matchesServer]

/-- A list of names has no empty ones, and no NUL in them. -/
theorem of_mem_splitNames {n : Name} : ∀ {names : List UInt8}, n ∈ splitNames names →
    n ≠ [] ∧ 0 ∉ n := by
  intro names
  induction hlen : names.length using Nat.strong_induction_on generalizing names with
  | _ len ih =>
    intro hn
    by_cases hzero : 0 ∈ names
    · obtain ⟨first, rest, rfl, hfirst⟩ := eq_append_cons_of_mem hzero
      rw [splitNames_cons hfirst, mem_append] at hn
      rcases hn with hn | hn
      · split at hn
        · cases hn
        · rename_i hne
          rw [mem_singleton.mp hn]
          exact ⟨hne, hfirst⟩
      · refine ih rest.length ?_ rfl hn
        simp at hlen
        omega
    · -- one name, without a NUL behind it
      have hone : names.splitOn 0 = [names] := by
        refine splitOnP_eq_singleton fun x hx => ?_
        rw [beq_eq_false_iff_ne]
        rintro rfl
        exact hzero hx
      rw [splitNames, hone, mem_filter, mem_singleton] at hn
      obtain ⟨rfl, hne⟩ := hn
      exact ⟨by simpa using hne, hzero⟩

theorem mapServerXattrlist_isSome {names : List UInt8} :
    (m.mapServerXattrlist names).isSome ↔ ∀ n ∈ splitNames names, (m.mapServerXattr n).isSome := by
  rw [mapServerXattrlist, Option.isSome_map]
  generalize splitNames names = l
  induction l with
  | nil => simp
  | cons n l ih =>
    rw [mapM_cons, forall_mem_cons, ← ih]
    cases m.mapServerXattr n with
    | none => simp
    | some shown =>
      cases l.mapM m.mapServerXattr <;> simp

section Requests

variable {ok : (a : NeutralAct) → a.Ans → Prop} {safe : LocalPanic → Prop}

/-- A request looks at the map, and at whether ACLs are on. -/
theorem blockXattr_meets (name : Name) :
    Meets ok safe (PassthroughFs.blockXattr name) fun _ => True := by
  refine Obeys.act trivial fun posixAcl _ => ?_
  cases posixAcl with
  | true | false => exact Obeys.ret trivial

theorem filterXattrs_meets : ∀ names : List Name,
    Meets ok safe (PassthroughFs.filterXattrs names) (· <+ names)
  | [] => Obeys.ret (Sublist.refl [])
  | name :: names => by
    refine (blockXattr_meets name).bind fun blocked _ =>
      (filterXattrs_meets names).bind fun rest hrest => Obeys.ret ?_
    split
    · exact hrest.cons name
    · exact hrest.cons_cons name

end Requests

/-- **When there is a rule for every name.**  The empty name is matched by an empty key only, and
a name of one byte by that byte or nothing. -/
theorem rule_for_every_iff (m : XattrMap) : m.RuleForEvery ↔ m.Terminated := by
  constructor
  · intro h
    refine ⟨?_, fun b hb => ?_⟩
    · obtain ⟨r, hr, hscope, hkey⟩ := mapClientXattr_isSome.mp (h.client [])
      exact ⟨r, hr, hscope, prefix_nil.mp hkey⟩
    · have hsplit : splitNames [b, 0] = [[b]] := by
        rw [show [b, 0] = [b] ++ 0 :: [] from rfl, splitNames_cons (by simpa using hb.symm)]
        rfl
      have hsome := mapServerXattrlist_isSome.mp (h.server [b, 0]) [b] (by simp [hsplit])
      obtain ⟨r, hr, hscope, hprepend⟩ := mapServerXattr_isSome.mp hsome
      refine ⟨r, hr, hscope, ?_⟩
      rcases prefix_cons_iff.mp hprepend with hnil | ⟨rest, hcons, hrest⟩
      · exact .inl hnil
      · rw [prefix_nil.mp hrest] at hcons
        exact .inr hcons
  · intro h
    have hclient : ∀ n, (m.mapClientXattr n).isSome := by
      intro n
      obtain ⟨r, hr, hscope, hkey⟩ := h.client
      exact mapClientXattr_isSome.mpr ⟨r, hr, hscope, hkey ▸ nil_prefix⟩
    have hserver : ∀ names, (m.mapServerXattrlist names).isSome := by
      intro names
      refine mapServerXattrlist_isSome.mpr fun n hn => ?_
      obtain ⟨hne, hzero⟩ := of_mem_splitNames hn
      obtain ⟨b, rest, rfl⟩ := exists_cons_of_ne_nil hne
      obtain ⟨r, hr, hscope, hprepend⟩ := h.server b fun hb => hzero (hb ▸ mem_cons_self)
      refine mapServerXattr_isSome.mpr ⟨r, hr, hscope, ?_⟩
      rcases hprepend with hprepend | hprepend
      · rw [hprepend]
        exact nil_prefix
      · rw [hprepend]
        exact prefix_append [b] rest
    refine ⟨hclient, hserver, fun cfg hcfg name names => ⟨?_, ?_⟩⟩
    · refine (blockXattr_meets name).bind fun blocked _ => ?_
      cases blocked with
      | true => exact Obeys.err
      | false =>
        obtain ⟨applied, happlied⟩ := Option.isSome_iff_exists.mp (hclient name)
        simp only [hcfg, happlied, Bool.false_eq_true, if_false]
        cases applied with
        | pass newName => exact Obeys.ret trivial
        | deny | unsupported => exact Obeys.err
    · obtain ⟨mapped, hmapped⟩ := Option.isSome_iff_exists.mp (hserver names)
      unfold PassthroughFs.mapServerXattrlist
      simp only [hcfg, hmapped]
      exact (filterXattrs_meets (splitNames mapped)).bind fun _ _ => Obeys.ret trivial

/-- `security.`. -/
def securityKey : List Char := ['s', 'e', 'c', 'u', 'r', 'i', 't', 'y', '.']

/-- `:ok:all:security.:security.:`. -/
def securityOnly : List Char :=
  ':' :: okWord ++ ':' :: allWord ++ ':' :: securityKey ++ ':' :: securityKey ++ [':']

def securityOnlyMap : XattrMap :=
  ⟨[⟨true, true, .okay, securityKey.map narrow, securityKey.map narrow⟩]⟩

theorem tryFrom_securityOnly : tryFrom securityOnly = .ok securityOnlyMap := by
  have htrim : trim securityOnly = securityOnly := by decide +kernel
  have hrule : fromTokens securityOnly = .ok (.plain
      ⟨true, true, .okay, securityKey.map narrow, securityKey.map narrow⟩, []) := by decide +kernel
  have hloop : rulesLoop securityOnly [] = rulesLoop [] securityOnlyMap.rules :=
    rulesLoop_plain (by decide) hrule
  rw [tryFrom, htrim, hloop, rulesLoop_nil]
  rfl

/-- `user.a`. -/
def userA : Name := [117, 115, 101, 114, 46, 97]

/-- **A map that is accepted, with no rule for most names.**  A request of the guest for the
attribute `user.a` panics. -/
theorem accepted_map_panics :
    let cfg := { Config.default with xattr := true, xattrmap := some securityOnlyMap }
    tryFrom securityOnly = .ok securityOnlyMap ∧ securityOnlyMap.mapClientXattr userA = none ∧
      (∀ w : World, ((PassthroughFs.getxattr cfg ROOT_ID userA 0).run
        (fun a w => w.perform (.neutral a)) w).1 = .panic .unterminatedMapping) ∧
      ¬ securityOnlyMap.RuleForEvery := by
  refine ⟨tryFrom_securityOnly, by decide, fun w => ?_, fun hevery => ?_⟩
  · have hname : (userA.isPrefixOf PassthroughFs.aclAccess ||
        userA.isPrefixOf PassthroughFs.aclDefault) = false := by decide +kernel
    refine congrArg Prod.fst (Prog.run_bind_of_panic _ (?_ : _ = (_, w)))
    show (Prog.attempt (Prog.bind (if w.fs.flags .posixAcl = true then .ret false
      else .ret (userA.isPrefixOf PassthroughFs.aclAccess ||
        userA.isPrefixOf PassthroughFs.aclDefault)) _)).run _ w = _
    rw [hname]
    split <;> rfl
  · exact absurd (hevery.client userA) (by decide)

/-! ## 5. What is listed fits the buffer -/

/-- On its way to the guest a name can only lose its beginning. -/
theorem mapServerXattr_suffix {n n' : Name} (h : m.mapServerXattr n = some (some n')) :
    n' <:+ n := by
  obtain ⟨r, -, hr⟩ := Option.map_eq_some_iff.mp h
  split at hr <;> cases hr
  · exact suffix_refl n
  · exact drop_suffix _ n

theorem mapM_sublist {names : List Name} {mapped : List (Option Name)}
    (h : names.mapM m.mapServerXattr = some mapped) (hnul : ∀ n ∈ names, 0 ∉ n) :
    joinNames mapped.reduceOption <+ joinNames names ∧ ∀ n ∈ mapped.reduceOption, 0 ∉ n := by
  induction names generalizing mapped with
  | nil =>
    cases h
    exact ⟨Sublist.refl _, nofun⟩
  | cons n names ih =>
    obtain ⟨shown, hshown, hrest⟩ := Option.bind_eq_some_iff.mp (mapM_cons (m := Option) ▸ h)
    obtain ⟨rest, hmap, ⟨⟩⟩ := Option.bind_eq_some_iff.mp hrest
    obtain ⟨hn, hnames⟩ := forall_mem_cons.mp hnul
    obtain ⟨hsub, hfree⟩ := ih hmap hnames
    cases shown with
    | none => exact ⟨hsub.trans (sublist_append_right _ _), hfree⟩
    | some n' =>
      have hsuffix := mapServerXattr_suffix hshown
      refine ⟨(hsuffix.sublist.append (Sublist.refl [0])).append hsub,
        forall_mem_cons.mpr ⟨fun hzero => hn (hsuffix.subset hzero), hfree⟩⟩

/-- The names of a reply, one after the other, are part of the host's list: the placeholder of
an empty reply is no name, and neither is one that was stripped to nothing. -/
theorem splitNames_mapServerXattrlist {hosts : List Name} (hnul : ∀ n ∈ hosts, 0 ∉ n)
    {reply : List UInt8} (h : m.mapServerXattrlist (joinNames hosts) = some reply) :
    joinNames (splitNames reply) <+ joinNames hosts := by
  obtain ⟨mapped, hmapped, rfl⟩ := Option.map_eq_some_iff.mp h
  rw [splitNames_joinNames hnul] at hmapped
  obtain ⟨hsub, hfree⟩ := mapM_sublist hmapped fun n hn => hnul n (mem_of_mem_filter hn)
  dsimp only
  split
  · exact nil_sublist _
  · rw [splitNames_joinNames hfree]
    exact (filter_sublist.flatMap _).trans (hsub.trans (filter_sublist.flatMap _))

/-- The attributes of the file are `hosts`: the host reports the length of their list, and writes
the list into a buffer it fits into. -/
def HostLists (hosts : List Name) : (a : NeutralAct) → a.Ans → Prop
  | .host (.listxattr _ _ size), some (n, buf) =>
    n = (joinNames hosts).length ∧ (size ≠ 0 → buf = joinNames hosts ∧ n ≤ size)
  | _, _ => True

/-- **The reply fits**: non-empty names, each with a NUL behind it, in no more bytes than the
host's list has, which is what the guest is told when it asks for the size. -/
def Fits (hosts : List Name) (size : Nat) : XattrReply → Prop
  | .count n => size = 0 ∧ n = (joinNames hosts).length
  | .value out => (∃ names, (∀ n ∈ names, n ≠ [] ∧ 0 ∉ n) ∧ out = joinNames names) ∧
    out.length ≤ (joinNames hosts).length ∧ (joinNames hosts).length ≤ size

theorem mapServerXattrlist_meets {ok : (a : NeutralAct) → a.Ans → Prop} (cfg : Config)
    {hosts : List Name} (hnul : ∀ n ∈ hosts, 0 ∉ n) :
    Meets ok (fun _ => True) (PassthroughFs.mapServerXattrlist cfg (joinNames hosts))
      fun out => (∃ names, (∀ n ∈ names, n ≠ [] ∧ 0 ∉ n) ∧ out = joinNames names) ∧
        out.length ≤ (joinNames hosts).length := by
  have hfilter : ∀ all, joinNames (splitNames all) <+ joinNames hosts →
      Meets ok (fun _ => True) ((PassthroughFs.filterXattrs (splitNames all)).bind fun names =>
        .ret (joinNames names)) fun out =>
          (∃ names, (∀ n ∈ names, n ≠ [] ∧ 0 ∉ n) ∧ out = joinNames names) ∧
            out.length ≤ (joinNames hosts).length := by
    intro all hall
    refine (filterXattrs_meets _).bind fun names hsub => Obeys.ret ⟨⟨names, ?_, rfl⟩, ?_⟩
    · exact fun n hn => of_mem_splitNames (hsub.subset hn)
    · exact ((hsub.flatMap _).trans hall).length_le
  unfold PassthroughFs.mapServerXattrlist
  cases cfg.xattrmap with
  | none =>
    refine hfilter _ ?_
    rw [splitNames_joinNames hnul]
    exact filter_sublist.flatMap _
  | some m =>
    dsimp only
    cases hreply : m.mapServerXattrlist (joinNames hosts) with
    | none => exact Obeys.panic trivial
    | some reply => exact hfilter _ (splitNames_mapServerXattrlist hnul hreply)

/-- **What LISTXATTR returns fits the guest's buffer**, for every map, with or without ACLs. -/
theorem listxattr_fits (cfg : Config) (inode : Inode) (size : Nat) {hosts : List Name}
    (hnul : ∀ n ∈ hosts, 0 ∉ n) :
    Meets (HostLists hosts) (fun _ => True) (PassthroughFs.listxattr cfg inode size)
      (Fits hosts size) := by
  have hcall : ∀ (data : InodeData) (fd : Fd), Meets (HostLists hosts) (fun _ => True)
      (PassthroughFs.onXattrFile data (host (.listxattr fd (!isSafeInode data.mode) size)))
      fun r => HostLists hosts (.host (.listxattr fd (!isSafeInode data.mode) size)) r := by
    intro data fd
    have hbody : Meets (HostLists hosts) (fun _ => True)
        (host (.listxattr fd (!isSafeInode data.mode) size) : NeutralM _)
        fun r => HostLists hosts (.host (.listxattr fd (!isSafeInode data.mode) size)) r :=
      Obeys.act trivial fun r hr => Obeys.ret hr
    unfold PassthroughFs.onXattrFile
    split
    · exact hbody
    · refine (Meets.any _).bind fun r _ => ?_
      cases r with
      | error e => exact Obeys.panic trivial
      | ok _ => exact hbody.ensuring (Meets.any _)
  unfold PassthroughFs.listxattr
  cases cfg.xattr with
  | false => exact Obeys.err
  | true =>
    refine (Meets.any _).bind fun data _ => ?_
    refine (Meets.any _).bind fun fd _ => (hcall data.data fd).bind fun r hr => ?_
    match r, hr with
    | none, _ => exact (Meets.any _).bind fun _ _ => Obeys.err
    | some (n, buf), ⟨hn, hbuf⟩ =>
      dsimp only
      split
      · exact Obeys.ret ⟨‹_›, hn⟩
      · obtain ⟨rfl, hle⟩ := hbuf ‹_›
        exact (mapServerXattrlist_meets cfg hnul).bind fun out hout =>
          Obeys.ret ⟨hout.1, hout.2, hn ▸ hle⟩

/-- `u.t.a` and `u.`. -/
def sampleXattrs : List Name := [[117, 46, 116, 46, 97], [117, 46]]

/-- A host whose files have these attributes. -/
def xattrHost (k : Nat) : Host
  | .listxattr _ _ size =>
    if size = 0 ∨ 9 ≤ size then some (9, joinNames sampleXattrs) else none
  | c => obligingHost k c

/-- The key of a rule is left of a name, and nothing of one that is its prepend. -/
theorem listxattr_fits_stripped :
    let cfg := { Config.default with
      xattr := true, xattrmap := some (ofMapRule [116, 46] [117, 46]) }
    (∀ k c, HostLists sampleXattrs (.host c) (xattrHost k c)) ∧
      ((PassthroughFs.listxattr cfg ROOT_ID 9).run (fun a => World.perform (.neutral a))
        { (initLedger 2).world with oracle := xattrHost }).1 = .ok (.value [116, 46, 97, 0]) ∧
      Meets (HostLists sampleXattrs) (fun _ => True) (PassthroughFs.listxattr cfg ROOT_ID 9)
        (Fits sampleXattrs 9) := by
  refine ⟨fun k c => ?_, by decide +kernel, listxattr_fits _ ROOT_ID 9 (by decide)⟩
  cases c with
  | listxattr fd path size =>
    unfold xattrHost
    dsimp only
    split
    · rename_i hsize
      exact ⟨rfl, fun hne => ⟨rfl, hsize.resolve_left hne⟩⟩
    · trivial
  | _ => trivial

end XattrMap

end Virtiofsd
