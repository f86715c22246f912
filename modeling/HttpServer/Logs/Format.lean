import HttpServer.Cgi.ForkedChild
import HttpServer.Lib.Bytes

/-!
# The pattern of a log line

`Formatter` of `logs/format.hpp`: `parsePattern` turns a pattern into items and `format`
concatenates what they print. `Reads` is the pattern language as a relation between a
pattern and its tokens. The loop of `parsePattern` accepts exactly the patterns that read
(`parseLoop_reads`, `reads_of_parseLoop`), but what it collects of literal text it hands on
only when the next specifier comes: text after the last one is lost
(`format_eq_reference_iff`).
-/

namespace HttpServer.Logs
open Lib
open Cgi (LogLevel)

/-! ## Messages and items -/

/-- `LogLevel::tostring`. -/
def levelText : LogLevel → Bytes
  | .debug => ascii "DEBUG"
  | .info => ascii "INFO"
  | .warn => ascii "WARN"
  | .error => ascii "ERROR"
  | .fatal => ascii "FATAL"
  | .off => ascii "OFF"
  | .unknow => ascii "UNKNOW"

/-- `LogMsg`; the thread is kept as the text its `operator<<` writes. -/
structure LogMsg where
  ctime : Int
  level : LogLevel
  line : Nat
  tid : Bytes
  file : Bytes
  logger : Bytes
  payload : Bytes
  deriving DecidableEq, Repr

/-- The classes derived from `FormatItem`. -/
inductive FormatItem where
  | msg
  | level
  | time (fmt : Bytes)
  | file
  | line
  | thread
  | logger
  | tab
  | nline
  | other (str : Bytes)
  deriving DecidableEq, Repr

/-- What `localtime_r` and `strftime` leave in `tmp`, for a format and a time. -/
abbrev TimeText := Bytes → Int → Bytes

/-- `FormatItem::format`. -/
def FormatItem.format (timeText : TimeText) (m : LogMsg) : FormatItem → Bytes
  | .msg => m.payload
  | .level => levelText m.level
  | .time fmt => timeText (cStr fmt) m.ctime
  | .file => m.file
  | .line => decimal m.line
  | .thread => m.tid
  | .logger => m.logger
  | .tab => ascii "\t"
  | .nline => ascii "\n"
  | .other str => str

/-! ## The parser -/

/-- The loop of `parsePattern` on the rest of the pattern, with `val` and `fmt_order`: `none` if
it is not over after so many rounds, and `some none` for the return of false. -/
def parseLoop : Nat → Bytes → Bytes → List (Bytes × Bytes) → Option (Option (List (Bytes × Bytes)))
  | 0, _, _, _ => none
  | _ + 1, [], _, fmtOrder => some (some fmtOrder)
  | rounds + 1, ch :: rest, val, fmtOrder =>
    if ch ≠ 37 then parseLoop rounds rest (val ++ [ch]) fmtOrder
    else if rest.head? = some 37 then parseLoop rounds rest.tail (val ++ [37]) fmtOrder
    else
      let fmtOrder := if val = [] then fmtOrder else fmtOrder ++ [([], val)]
      match rest with
      | [] => some none
      | key :: rest =>
        if rest.head? = some 123 then
          match rest.tail.dropWhile fun b => b != 125 with
          | [] => some none
          | _ :: after => parseLoop rounds after [] (fmtOrder ++ [([key], rest.tail.takeWhile fun b => b != 125)])
        else parseLoop rounds rest [] (fmtOrder ++ [([key], [])])

/-- Every round consumes a byte. -/
theorem parseLoop_isSome {rounds : Nat} {pattern : Bytes} (enough : pattern.length < rounds) (val : Bytes)
    (fmtOrder : List (Bytes × Bytes)) : (parseLoop rounds pattern val fmtOrder).isSome := by
  induction rounds generalizing pattern val fmtOrder with
  | zero => omega
  | succ rounds ih =>
    cases pattern with
    | nil => rfl
    | cons ch rest =>
      rw [List.length_cons] at enough
      rw [parseLoop]
      split
      · exact ih (by omega) _ _
      · split
        · exact ih (by rw [List.length_tail]; omega) _ _
        · cases rest with
          | nil => rfl
          | cons key rest =>
            rw [List.length_cons] at enough
            simp only
            split
            · split
              · rfl
              · rename_i left after found
                have shorter := congrArg List.length found
                have dropped := (List.dropWhile_sublist (fun b => b != 125) (l := rest.tail)).length_le
                rw [List.length_cons] at shorter
                rw [List.length_tail] at dropped
                exact ih (by omega) _ _
            · exact ih (by omega) _ _

/-- `creatItem(key, val)`; `none` is the call of `abort`. -/
def creatItem (key val : Bytes) : Option FormatItem :=
  if key = ascii "d" then some (.time val)
  else if key = ascii "t" then some .thread
  else if key = ascii "c" then some .logger
  else if key = ascii "f" then some .file
  else if key = ascii "l" then some .line
  else if key = ascii "p" then some .level
  else if key = ascii "T" then some .tab
  else if key = ascii "m" then some .msg
  else if key = ascii "n" then some .nline
  else if key = [] then some (.other val)
  else none

/-- How `parsePattern` ends: it returns false, ends the process, or returns true with the items. -/
inductive Parsed where
  | refused
  | aborted
  | accepted (items : List FormatItem)
  deriving DecidableEq, Repr

/-- What the loop comes to. -/
def parsed (pattern : Bytes) : Option (List (Bytes × Bytes)) :=
  (parseLoop (pattern.length + 1) pattern [] []).get (parseLoop_isSome (Nat.lt_succ_self _) [] [])

theorem parsed_eq {pattern : Bytes} {collected : Option (List (Bytes × Bytes))}
    (ended : parseLoop (pattern.length + 1) pattern [] [] = some collected) : parsed pattern = collected := by
  simp only [parsed, ended, Option.get_some]

/-- `parsePattern`. -/
def parsePattern (pattern : Bytes) : Parsed :=
  match parsed pattern with
  | none => .refused
  | some fmtOrder =>
    match fmtOrder.mapM fun it => creatItem it.1 it.2 with
    | none => .aborted
    | some items => .accepted items

/-- The calls of the C library's time functions that a line of an accepted pattern makes. -/
def timeItems : Parsed → Nat
  | .accepted items => items.countP fun item => (item matches .time _)
  | _ => 0

-- the default pattern
example : timeItems (parsePattern (ascii "[%d{%H:%M:%S}][%t][%c][%f:%l][%p]%T%m%n")) = Cgi.rootLogger.timeItems := by
  decide

/-- `Formatter::format`. -/
def format (timeText : TimeText) (items : List FormatItem) (m : LogMsg) : Bytes :=
  items.flatMap (FormatItem.format timeText m)

/-! ## The pattern language -/

inductive Token where
  | literal (b : UInt8)
  | percent
  | specifier (key : UInt8) (sub : Option Bytes)
  deriving DecidableEq, Repr

/-- The tokens of a pattern. A `{` right behind a key always opens a sub-rule. -/
inductive Reads : Bytes → List Token → Prop where
  | nil : Reads [] []
  | literal {b : UInt8} {rest : Bytes} {tokens : List Token} (other : b ≠ 37) :
      Reads rest tokens → Reads (b :: rest) (.literal b :: tokens)
  | percent {rest : Bytes} {tokens : List Token} :
      Reads rest tokens → Reads (37 :: 37 :: rest) (.percent :: tokens)
  | specifier {key : UInt8} {rest : Bytes} {tokens : List Token} (other : key ≠ 37) (plain : rest.head? ≠ some 123) :
      Reads rest tokens → Reads (37 :: key :: rest) (.specifier key none :: tokens)
  | sub {key : UInt8} {sub rest : Bytes} {tokens : List Token} (other : key ≠ 37) (closed : (125 : UInt8) ∉ sub) :
      Reads rest tokens → Reads (37 :: key :: 123 :: (sub ++ 125 :: rest)) (.specifier key (some sub) :: tokens)

/-- The field a specifier stands for, as the comment above `Formatter` lists them. -/
def fieldText (timeText : TimeText) (m : LogMsg) (key : UInt8) (sub : Bytes) : Bytes :=
  if [key] = ascii "d" then timeText (cStr sub) m.ctime
  else if [key] = ascii "T" then ascii "\t"
  else if [key] = ascii "t" then m.tid
  else if [key] = ascii "p" then levelText m.level
  else if [key] = ascii "c" then m.logger
  else if [key] = ascii "f" then m.file
  else if [key] = ascii "l" then decimal m.line
  else if [key] = ascii "m" then m.payload
  else if [key] = ascii "n" then ascii "\n"
  else []

/-- What a token stands for in the output. -/
def Token.text (timeText : TimeText) (m : LogMsg) : Token → Bytes
  | .literal b => [b]
  | .percent => [37]
  | .specifier key sub => fieldText timeText m key (sub.getD [])

/-- The pattern read from left to right, each token replaced by its text. -/
def reference (timeText : TimeText) (m : LogMsg) (tokens : List Token) : Bytes := tokens.flatMap (Token.text timeText m)

/-! ## What the loop collects -/

/-- The entry that literal text becomes when a specifier comes. -/
def flush (val : Bytes) : List (Bytes × Bytes) := if val = [] then [] else [([], val)]

/-- The entries of a pattern, behind pending literal text. -/
def entries : Bytes → List Token → List (Bytes × Bytes)
  | _, [] => []
  | val, .literal b :: tokens => entries (val ++ [b]) tokens
  | val, .percent :: tokens => entries (val ++ [37]) tokens
  | val, .specifier key sub :: tokens => flush val ++ ([key], sub.getD []) :: entries [] tokens

/-- The literal text still pending at the end of a pattern. -/
def pending : Bytes → List Token → Bytes
  | val, [] => val
  | val, .literal b :: tokens => pending (val ++ [b]) tokens
  | val, .percent :: tokens => pending (val ++ [37]) tokens
  | _, .specifier _ _ :: tokens => pending [] tokens

theorem append_flush (fmtOrder : List (Bytes × Bytes)) (val : Bytes) :
    (if val = [] then fmtOrder else fmtOrder ++ [([], val)]) = fmtOrder ++ flush val := by
  unfold flush
  split
  · rw [List.append_nil]
  · rfl

/-- Behind a `{` there is a sub-rule, or no `}` at all. -/
theorem sub_rule_or_open (inner : Bytes) :
    (∃ sub after, (125 : UInt8) ∉ sub ∧ inner = sub ++ 125 :: after) ∨ inner.dropWhile (fun b => b != 125) = [] := by
  by_cases mem : (125 : UInt8) ∈ inner
  · obtain ⟨sub, after, split, closed⟩ := List.eq_append_cons_of_mem mem
    exact .inl ⟨sub, after, closed, split⟩
  · exact .inr (List.dropWhile_eq_nil_iff.mpr (ne_of_absent mem))

/-- A pattern that reads is accepted by the loop, which collects its entries. -/
theorem parseLoop_reads {pattern : Bytes} {tokens : List Token} (reads : Reads pattern tokens) {rounds : Nat}
    (enough : pattern.length < rounds) (val : Bytes) (fmtOrder : List (Bytes × Bytes)) :
    parseLoop rounds pattern val fmtOrder = some (some (fmtOrder ++ entries val tokens)) := by
  induction reads generalizing rounds val fmtOrder with
  | nil =>
    cases rounds with
    | zero => omega
    | succ rounds => simp [parseLoop, entries]
  | literal other reads ih =>
    cases rounds with
    | zero => omega
    | succ rounds =>
      rw [List.length_cons] at enough
      rw [parseLoop, if_pos other]
      exact ih (by omega) _ _
  | percent reads ih =>
    cases rounds with
    | zero => omega
    | succ rounds =>
      simp only [List.length_cons] at enough
      rw [parseLoop, if_neg (by decide), List.head?_cons, if_pos rfl]
      exact ih (by omega) _ _
  | @specifier key rest tokens other plain reads ih =>
    cases rounds with
    | zero => omega
    | succ rounds =>
      simp only [List.length_cons] at enough
      rw [parseLoop, if_neg (by decide), if_neg (by simpa using other), append_flush]
      simp only
      rw [if_neg plain, ih (by omega) [] _, entries]
      simp
  | @sub key sub rest tokens other closed reads ih =>
    cases rounds with
    | zero => omega
    | succ rounds =>
      simp only [List.length_cons, List.length_append] at enough
      rw [parseLoop, if_neg (by decide), if_neg (by simpa using other), append_flush]
      simp only [List.head?_cons, if_true, List.tail_cons, takeWhile_until closed, dropWhile_until closed]
      rw [ih (by omega) [] _, entries]
      simp

/-- A pattern the loop accepts reads. -/
theorem reads_of_parseLoop {rounds : Nat} {pattern val : Bytes} {fmtOrder result : List (Bytes × Bytes)}
    (accepted : parseLoop rounds pattern val fmtOrder = some (some result)) : ∃ tokens, Reads pattern tokens := by
  induction rounds generalizing pattern val fmtOrder with
  | zero => cases accepted
  | succ rounds ih =>
    cases pattern with
    | nil => exact ⟨[], .nil⟩
    | cons ch rest =>
      rw [parseLoop] at accepted
      by_cases mark : ch = 37
      · subst mark
        rw [if_neg (by decide)] at accepted
        by_cases double : rest.head? = some 37
        · rw [if_pos double] at accepted
          obtain ⟨tokens, reads⟩ := ih accepted
          obtain ⟨after, rfl⟩ := List.head?_eq_some_iff.mp double
          exact ⟨_, .percent reads⟩
        · rw [if_neg double] at accepted
          cases rest with
          | nil => cases accepted
          | cons key rest =>
            have other : key ≠ 37 := fun eq => double (congrArg some eq)
            simp only at accepted
            by_cases brace : rest.head? = some 123
            · rw [if_pos brace] at accepted
              obtain ⟨inner, rfl⟩ := List.head?_eq_some_iff.mp brace
              obtain ⟨sub, after, closed, rfl⟩ | unclosed := sub_rule_or_open inner
              · rw [List.tail_cons, takeWhile_until closed, dropWhile_until closed] at accepted
                obtain ⟨tokens, reads⟩ := ih accepted
                exact ⟨_, .sub other closed reads⟩
              · rw [List.tail_cons, unclosed] at accepted
                cases accepted
            · rw [if_neg brace] at accepted
              obtain ⟨tokens, reads⟩ := ih accepted
              exact ⟨_, .specifier other brace reads⟩
      · rw [if_pos mark] at accepted
        obtain ⟨tokens, reads⟩ := ih accepted
        exact ⟨_, .literal mark reads⟩

/-- A pattern reads in one way. -/
theorem reads_unique {pattern : Bytes} {tokens tokens' : List Token} (reads : Reads pattern tokens)
    (reads' : Reads pattern tokens') : tokens' = tokens := by
  induction reads generalizing tokens' with
  | nil =>
    cases reads'
    rfl
  | literal other reads ih =>
    cases reads' with
    | literal _ reads' => rw [ih reads']
    | percent => exact absurd rfl other
    | specifier => exact absurd rfl other
    | sub => exact absurd rfl other
  | percent reads ih =>
    cases reads' with
    | literal other => exact absurd rfl other
    | percent reads' => rw [ih reads']
    | specifier other => exact absurd rfl other
    | sub other => exact absurd rfl other
  | specifier other plain reads ih =>
    cases reads' with
    | literal other => exact absurd rfl other
    | percent => exact absurd rfl other
    | specifier _ _ reads' => rw [ih reads']
    | sub => exact absurd rfl plain
  | @sub key sub rest tokens other closed reads ih =>
    generalize whole : sub ++ 125 :: rest = inner at reads'
    cases reads' with
    | literal other => exact absurd rfl other
    | percent => exact absurd rfl other
    | specifier _ plain => exact absurd rfl plain
    | @sub _ sub' rest' _ _ closed' reads' =>
      have taken := takeWhile_until closed rest
      have dropped := dropWhile_until closed rest
      rw [whole] at taken dropped
      have sameSub : sub' = sub := (takeWhile_until closed' rest').symm.trans taken
      have sameRest : rest' = rest := List.tail_eq_of_cons_eq ((dropWhile_until closed' rest').symm.trans dropped)
      subst sameSub sameRest
      rw [ih reads']

/-! ## The output -/

theorem created_here_or_below {key k : Bytes} {made item : FormatItem} {below : Option FormatItem}
    (created : (if key = k then some made else below) = some item) : (key = k ∧ item = made) ∨ below = some item := by
  split at created
  · rename_i is
    exact .inl ⟨is, (Option.some.inj created).symm⟩
  · exact .inr created

/-- An item that was created prints the field of its key. -/
theorem format_creatItem (timeText : TimeText) (m : LogMsg) {key : UInt8} {val : Bytes} {item : FormatItem}
    (created : creatItem [key] val = some item) : item.format timeText m = fieldText timeText m key val := by
  unfold creatItem at created
  -- the nine keys, in the order in which they are tested
  iterate 9
    rcases created_here_or_below created with ⟨is, rfl⟩ | below
    · unfold fieldText
      rw [is]
      rfl
    replace created := below
    clear below
  rcases created_here_or_below created with ⟨is, rfl⟩ | below
  · exact absurd is (List.cons_ne_nil key [])
  · cases below

/-- Together with the text still pending, the items of a pattern print what it stands for. -/
theorem format_entries (timeText : TimeText) (m : LogMsg) (tokens : List Token) {val : Bytes} {items : List FormatItem}
    (created : ((entries val tokens).mapM fun it => creatItem it.1 it.2) = some items) :
    format timeText items m ++ pending val tokens = val ++ reference timeText m tokens := by
  induction tokens generalizing val items with
  | nil =>
    obtain rfl : [] = items := Option.some.inj created
    simp [format, pending, reference]
  | cons token tokens ih =>
    cases token with
    | literal b =>
      rw [pending, ih created]
      simp [reference, Token.text]
    | percent =>
      rw [pending, ih created]
      simp [reference, Token.text]
    | specifier key sub =>
      rw [entries, List.mapM_append, List.mapM_cons] at created
      simp only [Option.bind_eq_bind, Option.bind_eq_some_iff, Option.pure_def, Option.some.injEq] at created
      obtain ⟨before, flushed, _, ⟨item, field, rest, created, rfl⟩, rfl⟩ := created
      have text : format timeText before m = val := by
        unfold flush at flushed
        split at flushed
        · rename_i empty
          obtain rfl : [] = before := Option.some.inj flushed
          exact empty.symm
        · obtain rfl : [FormatItem.other val] = before := Option.some.inj flushed
          simp [format, FormatItem.format]
      have fieldText := format_creatItem timeText m field
      have tail := ih created
      rw [pending]
      simp only [format, reference, List.flatMap_append, List.flatMap_cons, List.nil_append, Token.text] at text tail ⊢
      rw [text, fieldText, List.append_assoc, List.append_assoc, tail]

/-- The pattern is empty, or its last token is a conversion specifier. -/
def EndsInSpecifier (tokens : List Token) : Prop := ∀ last ∈ tokens.getLast?, ∃ key sub, last = .specifier key sub

theorem endsInSpecifier_cons (token : Token) {tokens : List Token} (more : tokens ≠ []) :
    EndsInSpecifier (token :: tokens) ↔ EndsInSpecifier tokens := by
  unfold EndsInSpecifier
  rw [List.getLast?_cons_of_ne_nil more]

/-- Nothing is pending exactly behind a specifier. -/
theorem pending_eq_nil (val : Bytes) (tokens : List Token) :
    pending val tokens = [] ↔ if tokens = [] then val = [] else EndsInSpecifier tokens := by
  induction tokens generalizing val with
  | nil => simp [pending]
  | cons token tokens ih =>
    rw [if_neg (List.cons_ne_nil token tokens)]
    by_cases last : tokens = []
    · subst last
      cases token with
      | literal b => simp [pending, EndsInSpecifier]
      | percent => simp [pending, EndsInSpecifier]
      | specifier key sub => simp [pending, EndsInSpecifier]
    · rw [endsInSpecifier_cons token last]
      cases token with
      | literal b => rw [pending, ih, if_neg last]
      | percent => rw [pending, ih, if_neg last]
      | specifier key sub => rw [pending, ih, if_neg last]

/-- **The rendering of a pattern, exactly.** A pattern that is accepted reads in one way, and what
`format` prints is the pattern so read if and only if it does not end in literal text. -/
theorem format_eq_reference_iff (timeText : TimeText) {pattern : Bytes} {items : List FormatItem}
    (accepted : parsePattern pattern = .accepted items) :
    ∃ tokens, Reads pattern tokens ∧ (∀ tokens', Reads pattern tokens' → tokens' = tokens) ∧
      ∀ m, format timeText items m = reference timeText m tokens ↔ EndsInSpecifier tokens := by
  obtain ⟨collected, ended⟩ := Option.isSome_iff_exists.mp (parseLoop_isSome (Nat.lt_succ_self pattern.length) [] [])
  simp only [parsePattern, parsed_eq ended] at accepted
  split at accepted
  · cases accepted
  · rename_i fmtOrder
    obtain ⟨tokens, reads⟩ := reads_of_parseLoop ended
    refine ⟨tokens, reads, fun _ => reads_unique reads, fun m => ?_⟩
    obtain rfl : entries [] tokens = fmtOrder := by
      have all := parseLoop_reads reads (Nat.lt_succ_self _) [] []
      exact Option.some.inj (Option.some.inj (all.symm.trans ended))
    split at accepted
    · cases accepted
    · rename_i items' created
      obtain rfl : items' = items := by simpa using accepted
      have printed := format_entries timeText m tokens created
      rw [List.nil_append] at printed
      have nothing := pending_eq_nil [] tokens
      rw [← printed, List.self_eq_append_right, nothing]
      split
      · rename_i empty
        simp [empty, EndsInSpecifier]
      · exact Iff.rfl

/-- A message for the example patterns. -/
def LogMsg.hello : LogMsg := ⟨0, .info, 7, ascii "1", ascii "a.cc", ascii "root", ascii "hello"⟩

/-- A pattern with literal text, a `%%` and a time with a sub-rule. -/
def stamped : Bytes := ascii "[%d{%H}] 9%% %m%n"

theorem stamped_reads :
    Reads stamped [.literal 91, .specifier 100 (some [37, 72]), .literal 93, .literal 32, .literal 57, .percent,
      .literal 32, .specifier 109 none, .specifier 110 none] :=
  .literal (by decide) (@Reads.sub 100 [37, 72] _ _ (by decide) (by decide) (.literal (by decide)
    (.literal (by decide) (.literal (by decide) (.percent (.literal (by decide)
      (.specifier (by decide) (by decide) (.specifier (by decide) (by decide) .nil))))))))

theorem format_eq_reference_iff_stamped :
    ∃ items, parsePattern stamped = .accepted items ∧
      format (fun fmt _ => fmt) items .hello = ascii "[%H] 9% hello\n" ∧
      ∃ tokens, Reads stamped tokens ∧ (∀ tokens', Reads stamped tokens' → tokens' = tokens) ∧
        EndsInSpecifier tokens ∧ ∀ m, format (fun fmt _ => fmt) items m = reference (fun fmt _ => fmt) m tokens := by
  have accepted : parsePattern stamped =
    .accepted [.other (ascii "["), .time (ascii "%H"), .other (ascii "] 9% "), .msg, .nline] := by decide
  obtain ⟨tokens, reads, unique, prints⟩ := format_eq_reference_iff (fun fmt _ => fmt) accepted
  have ends : EndsInSpecifier tokens := by
    rw [← unique _ stamped_reads]
    intro last mem
    exact ⟨110, none, (Option.mem_some.mp mem).symm⟩
  exact ⟨_, accepted, by decide, tokens, reads, unique, ends, fun m => (prints m).mpr ends⟩

/-- The exclamation mark behind the last specifier is not printed. -/
theorem format_drops_tail :
    parsePattern (ascii "%m!") = .accepted [.msg] ∧
    Reads (ascii "%m!") [.specifier 109 none, .literal 33] ∧
    reference (fun _ _ => []) .hello [.specifier 109 none, .literal 33] = ascii "hello!" ∧
    format (fun _ _ => []) [.msg] .hello ≠ reference (fun _ _ => []) .hello [.specifier 109 none, .literal 33] := by
  refine ⟨by decide, ?_, by decide, by decide⟩
  exact .specifier (by decide) (by decide) (.literal (by decide) .nil)

end HttpServer.Logs
