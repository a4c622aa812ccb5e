import Workflow.Proofs.Acceptance
import Workflow.Settings.Database

/-! Which passwords the masked target of a connection shows. The mask covers a URL up to its last at
sign, so nothing is seen of a password that an at sign follows, as the one in front of the host. A
password among the parameters of a URL is read as well, and is shown as it is written, or from its
own last at sign on, unless an at sign follows it by chance. -/

namespace Workflow

theorem mapError_eq_ok {ε ε' α : Type} {reading : Except ε α} {f : ε → ε'} {result : α}
    (read : reading.mapError f = .ok result) : reading = .ok result := by
  cases reading with
  | error fault => cases read
  | ok value =>
    cases read
    rfl

namespace Url

/-- A character that is read. Tabs and line ends in a URL are left out. -/
def isRead (c : Char) : Bool :=
  c ≠ '\t' ∧ c ≠ '\n' ∧ c ≠ '\r'

def stripped (chars : List Char) : List Char :=
  chars.filter isRead

/-- A URL is read but for the blanks and controls at its ends. -/
theorem cleaned_eq_stripped (chars : List Char) :
    ∃ lead inner trail, chars = lead ++ inner ++ trail ∧ cleaned chars = stripped inner := by
  let isControl (c : Char) : Bool := c ≤ ' '
  let rest := chars.dropWhile isControl
  refine ⟨chars.takeWhile isControl, (rest.reverse.dropWhile isControl).reverse,
    (rest.reverse.takeWhile isControl).reverse, ?_, rfl⟩
  rw [List.append_assoc, ← List.reverse_append, List.takeWhile_append_dropWhile,
    List.reverse_reverse, List.takeWhile_append_dropWhile]

/-- A character that is read of a part divides it as it divides what is read. -/
theorem stripped_eq_append_cons {chars front back : List Char} {c : Char}
    (read : stripped chars = front ++ c :: back) :
    ∃ before after, chars = before ++ c :: after ∧ stripped before = front ∧
      stripped after = back := by
  obtain ⟨first, second, rfl, firstRead, secondRead⟩ := List.filter_eq_append_iff.mp read
  obtain ⟨skipped, after, rfl, unread, -, afterRead⟩ := List.filter_eq_cons_iff.mp secondRead
  refine ⟨first ++ skipped, after, by rw [List.append_assoc], ?_, afterRead⟩
  rw [stripped, List.filter_append, List.filter_eq_nil_iff.mpr unread, List.append_nil, firstRead]

theorem splitAtFirst_eq_some {mark : Char} {chars front back : List Char}
    (split : splitAtFirst mark chars = (front, some back)) : chars = front ++ mark :: back := by
  unfold splitAtFirst at split
  split at split
  next => cases split
  next c rest found =>
    cases split
    have marked : c = mark := by
      have stops := List.head?_dropWhile_not (· ≠ mark) chars
      rw [found] at stops
      simpa using stops
    conv_lhs => rw [← List.takeWhile_append_dropWhile (p := (· ≠ mark)) (l := chars), found, marked]

theorem splitAtFirst_starts (mark : Char) (chars : List Char) :
    (splitAtFirst mark chars).1 <+: chars := by
  unfold splitAtFirst
  split
  · exact List.prefix_refl _
  · exact List.takeWhile_prefix _

theorem splitQuery_within {chars path query : List Char}
    (split : splitQuery chars = (path, some query)) : query <:+: chars :=
  (List.IsSuffix.isInfix ⟨path ++ ['?'], by simpa using (splitAtFirst_eq_some split).symm⟩).trans
    (splitAtFirst_starts '#' chars).isInfix

theorem splitAtLastSign_eq_some {chars front back : List Char}
    (split : splitAtLastSign chars = (some front, back)) : chars = front ++ '@' :: back := by
  unfold splitAtLastSign at split
  split at split
  next after before found =>
    cases split
    have reversed := congrArg List.reverse (splitAtFirst_eq_some found)
    simpa using reversed
  next => cases split

theorem credentials_eq_some {chars username password : List Char}
    (read : credentials chars = (username, some password)) : chars = username ++ ':' :: password := by
  unfold credentials at read
  cases found : splitAtFirst ':' chars with
  | mk first second =>
    rw [found] at read
    cases second with
    | none => cases read
    | some given =>
      simp only [Option.bind_some] at read
      split at read
      · cases read
      · cases read
        exact splitAtFirst_eq_some found

structure Parts (url : Url) (chars : List Char) : Prop where
  password : ∀ password, url.password = some password → ':' :: password ++ ['@'] <:+: chars
  query : ∀ query, url.query = some query → query <:+: chars

theorem Parts.mono {url : Url} {chars whole : List Char} (parts : Parts url chars)
    (inside : chars <:+: whole) : Parts url whole :=
  ⟨fun password given => (parts.password password given).trans inside,
    fun query given => (parts.query query given).trans inside⟩

theorem readAuthority_eq_ok {scheme : String} {chars : List Char} {url : Url}
    (read : readAuthority scheme chars = .ok url) :
    let ends := endsAuthority (isWeb scheme)
    url.password = (credentials ((splitAtLastSign (chars.takeWhile (!ends ·))).1.getD [])).2 ∧
      url.query = (splitQuery (chars.dropWhile (!ends ·))).2 := by
  unfold readAuthority at read
  simp only at read
  split at read
  · cases read
  obtain ⟨host, -, read⟩ := bind_eq_ok read
  split at read
  · cases read
  obtain ⟨port, -, read⟩ := bind_eq_ok read
  cases read
  exact ⟨rfl, rfl⟩

theorem parts_of_readAuthority {scheme : String} {chars : List Char} {url : Url}
    (read : readAuthority scheme chars = .ok url) : Parts url chars := by
  obtain ⟨password, query⟩ := readAuthority_eq_ok read
  let ends (c : Char) : Bool := !endsAuthority (isWeb scheme) c
  constructor
  · intro given found
    rw [found] at password
    cases signed : splitAtLastSign (chars.takeWhile ends) with
    | mk userinfo place =>
      rw [signed] at password
      cases userinfo with
      | none => cases password
      | some userinfo =>
        have accounts := credentials_eq_some (Prod.ext rfl password.symm)
        have authority := splitAtLastSign_eq_some signed
        rw [Option.getD_some] at accounts
        rw [accounts] at authority
        have inside : ':' :: given ++ ['@'] <:+: chars.takeWhile ends :=
          ⟨(credentials userinfo).1, place, by simpa using authority.symm⟩
        exact inside.trans (List.takeWhile_prefix ends).isInfix
  · intro given found
    rw [found] at query
    exact (splitQuery_within (Prod.ext rfl query.symm)).trans (List.dropWhile_suffix _).isInfix

theorem takeScheme_suffix {chars rest : List Char} {scheme : String}
    (read : takeScheme chars = .ok (scheme, rest)) : rest <:+ chars := by
  unfold takeScheme at read
  simp only at read
  split at read
  next first more rest' named behind =>
    split at read
    · cases read
      exact (List.suffix_cons ':' rest).trans (behind ▸ List.dropWhile_suffix isSchemeChar)
    · cases read
  · cases read

theorem parts_of_parse {text : String} {url : Url} (read : parse text = .ok url) :
    Parts url (cleaned text.toList) := by
  unfold parse at read
  obtain ⟨⟨scheme, rest⟩, taken, read⟩ := bind_eq_ok read
  refine Parts.mono ?_ (takeScheme_suffix taken).isInfix
  dsimp only at read
  split at read
  · exact (parts_of_readAuthority read).mono (List.dropWhile_suffix _).isInfix
  · split at read
    next rest => exact (parts_of_readAuthority read).mono (List.suffix_append ['/', '/'] rest).isInfix
    next rest _ =>
      cases read
      refine ⟨nofun, fun query found => ?_⟩
      exact (splitQuery_within (Prod.ext rfl found)).trans (List.suffix_cons '/' rest).isInfix
    next rest _ _ =>
      cases read
      refine ⟨nofun, fun query found => ?_⟩
      exact splitQuery_within (Prod.ext rfl found)

theorem splitAtEvery_eq_cons (mark : Char) (chars : List Char) :
    ∃ first more, splitAtEvery mark chars = first :: more ∧ first <+: chars ∧
      ∀ piece ∈ more, piece <:+: chars := by
  induction chars with
  | nil => exact ⟨[], [], rfl, List.prefix_refl _, nofun⟩
  | cons c rest ih =>
    obtain ⟨first, more, pieces, start, inside⟩ := ih
    have later : ∀ piece ∈ more, piece <:+: c :: rest :=
      fun piece mem => (inside piece mem).trans (List.suffix_cons c rest).isInfix
    have step : splitAtEvery mark (c :: rest) =
        if c = mark then [] :: first :: more else (c :: first) :: more := by
      unfold splitAtEvery at pieces ⊢
      rw [List.foldr_cons, pieces]
    by_cases marked : c = mark
    · refine ⟨[], first :: more, by rw [step, if_pos marked], List.nil_prefix, ?_⟩
      rintro piece (_ | ⟨_, mem⟩)
      · exact start.isInfix.trans (List.suffix_cons c rest).isInfix
      · exact later piece mem
    · exact ⟨c :: first, more, by rw [step, if_neg marked],
        List.cons_prefix_cons.mpr ⟨rfl, start⟩, later⟩

theorem splitAtEvery_within {mark : Char} {chars piece : List Char}
    (mem : piece ∈ splitAtEvery mark chars) : piece <:+: chars := by
  obtain ⟨first, more, pieces, start, inside⟩ := splitAtEvery_eq_cons mark chars
  rw [pieces] at mem
  obtain rfl | later := List.mem_cons.mp mem
  · exact start.isInfix
  · exact inside piece later

end Url

namespace DatabaseSettings

open Url

theorem password_of_parameter {parameter : String × String} {start next : Target}
    (read : withParameter start parameter = .ok next) :
    next.password = start.password ∨
      parameter.1 = "password" ∧ next.password = some parameter.2 := by
  obtain ⟨name, value⟩ := parameter
  simp only [withParameter] at read
  split at read
  case h_1 =>
    cases read
    exact .inl (by split <;> rfl)
  case h_2 =>
    split at read
    · cases read
      exact .inl rfl
    · cases read
  case h_3 | h_9 =>
    obtain ⟨number, -, read⟩ := bind_eq_ok read
    cases read
    exact .inl rfl
  case h_6 =>
    cases read
    exact .inr ⟨rfl, rfl⟩
  case h_7 | h_8 =>
    split at read
    · cases read
      exact .inl rfl
    · cases read
  all_goals
    cases read
    exact .inl rfl

/-- The password of a target is one that it had, or that of a parameter. -/
theorem password_of_parameters {parameters : List (String × String)} {start target : Target}
    {secret : String} (read : parameters.foldlM withParameter start = .ok target)
    (given : target.password = some secret) :
    start.password = some secret ∨ ("password", secret) ∈ parameters := by
  induction parameters generalizing start with
  | nil =>
    cases read
    exact .inl given
  | cons parameter rest ih =>
    rw [List.foldlM_cons] at read
    obtain ⟨next, first, read⟩ := bind_eq_ok read
    obtain before | later := ih read
    · obtain kept | ⟨named, changed⟩ := password_of_parameter first
      · exact .inl (kept ▸ before)
      · have same : parameter = ("password", secret) :=
          Prod.ext named (Option.some.inj (changed.symm.trans before))
        exact .inr (same ▸ List.mem_cons_self)
    · exact .inr (List.mem_cons_of_mem _ later)

theorem password_of_withHost {start next : Target} {host : List Char}
    (read : withHost start host = .ok next) : next.password = start.password := by
  unfold withHost at read
  split at read
  · obtain ⟨directory, -, read⟩ := bind_eq_ok read
    cases read
    rfl
  · cases read
    rfl

def withPart (target : Target) (put : String → Target) (part : Option (List Char)) :
    Except TargetFault Target :=
  match part with
  | some chars => decoded chars >>= fun text => pure (put text)
  | none => pure target

theorem withPart_eq_ok {target next : Target} {put : String → Target} {part : Option (List Char)}
    (read : withPart target put part = .ok next) :
    next = target ∨ ∃ chars text, part = some chars ∧ decoded chars = .ok text ∧ next = put text := by
  cases part with
  | none =>
    cases read
    exact .inl rfl
  | some chars =>
    obtain ⟨text, found, read⟩ := bind_eq_ok read
    cases read
    exact .inr ⟨chars, text, rfl, found, rfl⟩

/-- A target takes host, user, password and path of a URL one after another, and then the
parameters in the query. -/
theorem targetOfUrl_eq (account : String) (url : Url) :
    targetOfUrl account url =
      ((url.host.elim (pure { username := account }) (withHost { username := account })) >>= fun hosted =>
      let placed : Target := { hosted with port := url.port.getD hosted.port }
      withPart placed (fun username => { placed with username })
        (if url.username.isEmpty then none else some url.username) >>= fun named =>
      withPart named (fun password => { named with password := some password })
        url.password >>= fun keyed =>
      withPart keyed (fun database => { keyed with database := some database })
        (if (url.path.dropWhile (· = '/')).isEmpty then none
          else some (url.path.dropWhile (· = '/'))) >>= fun located =>
      (queryPairs (url.query.getD [])).foldlM withParameter located) := by
  unfold targetOfUrl
  cases url.host <;> cases url.password <;> by_cases unnamed : url.username.isEmpty <;>
    by_cases bare : (url.path.dropWhile (· = '/')).isEmpty <;>
    simp only [unnamed, bare, withPart, Option.elim, ↓reduceIte, Bool.false_eq_true, pure_bind,
      bind_assoc]

/-- The password of a target is decoded of what stands before the host, or is that of a parameter. -/
theorem password_of_target {account : String} {url : Url} {target : Target} {secret : String}
    (read : targetOfUrl account url = .ok target) (given : target.password = some secret) :
    (∃ written, url.password = some written ∧ decoded written = .ok secret) ∨
      ("password", secret) ∈ queryPairs (url.query.getD []) := by
  rw [targetOfUrl_eq] at read
  obtain ⟨hosted, host, read⟩ := bind_eq_ok read
  obtain ⟨named, user, read⟩ := bind_eq_ok read
  obtain ⟨keyed, key, read⟩ := bind_eq_ok read
  obtain ⟨located, path, read⟩ := bind_eq_ok read
  have unset : hosted.password = none := by
    cases found : url.host with
    | none =>
      rw [found] at host
      cases host
      rfl
    | some chars =>
      rw [found] at host
      exact password_of_withHost host
  have unnamed : named.password = none := by
    obtain rfl | ⟨_, _, -, -, rfl⟩ := withPart_eq_ok user <;> exact unset
  have kept : located.password = keyed.password := by
    obtain rfl | ⟨_, _, -, -, rfl⟩ := withPart_eq_ok path <;> rfl
  refine (password_of_parameters read given).imp_left fun before => ?_
  obtain rfl | ⟨written, text, given, found, rfl⟩ := withPart_eq_ok key
  · rw [kept, unnamed] at before
    cases before
  · refine ⟨written, given, ?_⟩
    rw [found, ← Option.some.inj (kept.symm.trans before)]

def withUrl (settings : DatabaseSettings) (chars : List Char) : DatabaseSettings :=
  { settings with url := some (String.ofList chars) }

theorem eq_withUrl {settings : DatabaseSettings} {text : String} {chars : List Char}
    (given : settings.url = some text) (whole : text.toList = chars) :
    settings = settings.withUrl chars := by
  rw [withUrl, ← whole, String.ofList_toList, ← given]

/-- What follows the last at sign of a text, or all of a text without one. -/
def behindLastSign (chars : List Char) : List Char :=
  (chars.reverse.takeWhile (· ≠ '@')).reverse

theorem behindLastSign_append {front back : List Char} (unsigned : '@' ∉ back) :
    behindLastSign (front ++ back) = behindLastSign front ++ back := by
  have passes : ∀ c ∈ back.reverse, decide (c ≠ '@') = true := by
    intro c mem
    exact decide_eq_true fun sign => unsigned (sign ▸ List.mem_reverse.mp mem)
  rw [behindLastSign, List.reverse_append, List.takeWhile_append_of_pos passes,
    List.reverse_append, List.reverse_reverse, behindLastSign]

theorem behindLastSign_of_unsigned {chars : List Char} (unsigned : '@' ∉ chars) :
    behindLastSign chars = chars :=
  @behindLastSign_append [] chars unsigned

theorem behindLastSign_of_signed (front : List Char) {back : List Char} (signed : '@' ∈ back) :
    behindLastSign (front ++ back) = behindLastSign back := by
  have stops : (back.reverse.takeWhile (· ≠ '@')).length ≠ back.reverse.length := by
    intro whole
    have all := (List.takeWhile_prefix _).eq_of_length whole
    have other := List.takeWhile_eq_self_iff.mp all '@' (List.mem_reverse.mpr signed)
    simp at other
  rw [behindLastSign, List.reverse_append, List.takeWhile_append, if_neg stops, behindLastSign]

theorem redacted_withUrl (settings : DatabaseSettings) (chars : List Char) :
    (settings.withUrl chars).redacted =
      if '@' ∈ chars then "postgres://***@" ++ String.ofList (behindLastSign chars)
      else String.ofList chars := by
  by_cases signed : '@' ∈ chars <;>
    simp [redacted, withUrl, afterLastSign?, behindLastSign, signed]

theorem redacted_of_signed (settings : DatabaseSettings) (front : List Char) {back : List Char}
    (signed : '@' ∈ back) :
    (settings.withUrl (front ++ back)).redacted = (settings.withUrl back).redacted := by
  rw [redacted_withUrl, redacted_withUrl, if_pos signed, if_pos (List.mem_append_right front signed),
    behindLastSign_of_signed front signed]

theorem redacted_of_unsigned (settings : DatabaseSettings) (front : List Char) {back : List Char}
    (unsigned : '@' ∉ back) :
    (settings.withUrl (front ++ back)).redacted =
      (settings.withUrl front).redacted ++ String.ofList back := by
  rw [redacted_withUrl, redacted_withUrl]
  by_cases signed : '@' ∈ front
  · rw [if_pos signed, if_pos (List.mem_append_left back signed), behindLastSign_append unsigned,
      String.ofList_append, String.append_assoc]
  · rw [if_neg signed, if_neg (by simp [signed, unsigned]), String.ofList_append]

end DatabaseSettings

/-- Where a password is written: in its field, or between what a URL says before and after it. -/
inductive PasswordPlace where
  | field
  | account (before after : List Char)
  | parameter (before name after : List Char)

namespace PasswordPlace

open DatabaseSettings

def fill (place : PasswordPlace) (settings : DatabaseSettings) (written : List Char) :
    DatabaseSettings :=
  match place with
  | field => { settings with url := none, password := String.ofList written }
  | account before after => settings.withUrl (before ++ ':' :: written ++ '@' :: after)
  | parameter before name after => settings.withUrl (before ++ name ++ '=' :: written ++ after)

def Reads (place : PasswordPlace) (written : List Char) (secret : String) : Prop :=
  match place with
  | field => String.ofList written = secret
  | account _ _ => decoded (Url.stripped written) = .ok secret
  | parameter _ name _ =>
    Url.formDecode (Url.stripped name) = "password" ∧ Url.formDecode (Url.stripped written) = secret

/-- The mask covers a place: a parameter only if an at sign follows it. -/
def Masked : PasswordPlace → Prop
  | parameter _ _ after => '@' ∈ after
  | _ => True

/-- A parameter of a query stands in a URL as it is read, with its name and an equals sign. -/
theorem exists_place_of_parameter {settings : DatabaseSettings} {text : String} {query : List Char}
    {secret : String} (given : settings.url = some text)
    (inside : query <:+: Url.cleaned text.toList)
    (read : ("password", secret) ∈ Url.queryPairs query) (used : secret ≠ "") :
    ∃ place written, settings = fill place settings written ∧ place.Reads written secret := by
  obtain ⟨piece, mem, pair⟩ := List.mem_map.mp read
  have pieceInside := (Url.splitAtEvery_within (List.mem_of_mem_filter mem)).trans inside
  cases split : Url.splitAtFirst '=' piece with
  | mk name value? =>
    rw [split] at pair
    obtain ⟨named, valued⟩ := Prod.ext_iff.mp pair
    cases value? with
    | none =>
      have empty : Url.formDecode [] = "" := by decide +kernel
      exact absurd (valued.symm.trans empty) used
    | some value =>
      rw [Url.splitAtFirst_eq_some split] at pieceInside
      obtain ⟨front, back, cleaned⟩ := pieceInside
      obtain ⟨lead, inner, trail, whole, stripped⟩ := Url.cleaned_eq_stripped text.toList
      rw [stripped] at cleaned
      have read : Url.stripped inner = (front ++ name) ++ '=' :: (value ++ back) := by
        simpa using cleaned.symm
      obtain ⟨first, second, rfl, firstRead, secondRead⟩ := Url.stripped_eq_append_cons read
      obtain ⟨before, label, rfl, -, nameRead⟩ := List.filter_eq_append_iff.mp firstRead
      obtain ⟨written, after, rfl, writtenRead, -⟩ := List.filter_eq_append_iff.mp secondRead
      refine ⟨parameter (lead ++ before) label (after ++ trail), written, ?_, ?_, ?_⟩
      · exact eq_withUrl given (by simpa using whole)
      · exact (congrArg Url.formDecode nameRead).trans named
      · exact (congrArg Url.formDecode writtenRead).trans valued

/-- What is read as a password of an account stands in a URL between a colon and an at sign. -/
theorem exists_place_of_account {settings : DatabaseSettings} {text : String}
    {password : List Char} {secret : String} (given : settings.url = some text)
    (inside : ':' :: password ++ ['@'] <:+: Url.cleaned text.toList)
    (read : decoded password = .ok secret) :
    ∃ place written, settings = fill place settings written ∧ place.Reads written secret := by
  obtain ⟨front, back, cleaned⟩ := inside
  obtain ⟨lead, inner, trail, whole, stripped⟩ := Url.cleaned_eq_stripped text.toList
  rw [stripped] at cleaned
  have whole' : Url.stripped inner = front ++ ':' :: (password ++ '@' :: back) := by
    simpa using cleaned.symm
  obtain ⟨first, rest, rfl, -, restRead⟩ := Url.stripped_eq_append_cons whole'
  obtain ⟨written, after, rfl, writtenRead, -⟩ := Url.stripped_eq_append_cons restRead
  refine ⟨account (lead ++ first) (after ++ trail), written, ?_, ?_⟩
  · exact eq_withUrl given (by simpa using whole)
  · rw [Reads, writtenRead, read]

theorem exists_place {account : String} {settings : DatabaseSettings} {target : Target}
    {secret : String} (accepted : settings.target account = .ok target)
    (given : target.password = some secret) (used : secret ≠ "") :
    ∃ place written, settings = fill place settings written ∧ place.Reads written secret := by
  unfold DatabaseSettings.target at accepted
  split at accepted
  next text withUrl =>
    obtain ⟨url, parsed, read⟩ := bind_eq_ok accepted
    have parts : Url.Parts url (Url.cleaned text.toList) := Url.parts_of_parse (mapError_eq_ok parsed)
    obtain ⟨written, found, decodes⟩ | found := password_of_target read given
    · exact exists_place_of_account withUrl (parts.password written found) decodes
    · cases queried : url.query with
      | none =>
        rw [queried] at found
        cases found
      | some query =>
        rw [queried] at found
        exact exists_place_of_parameter withUrl (parts.query query queried) found used
  next withoutUrl =>
    cases accepted
    cases given
    refine ⟨field, settings.password.toList, ?_, String.ofList_toList⟩
    rw [fill, String.ofList_toList, ← withoutUrl]

theorem redacted_of_masked {place : PasswordPlace} (masked : place.Masked)
    (settings : DatabaseSettings) (written rewritten : List Char) :
    (place.fill settings written).redacted = (place.fill settings rewritten).redacted := by
  cases place with
  | field => rfl
  | account before after =>
    have signed : '@' ∈ '@' :: after := List.mem_cons_self
    have both := fun chars => redacted_of_signed settings (before ++ ':' :: chars) signed
    exact (both written).trans (both rewritten).symm
  | parameter before name after =>
    have both := fun chars => redacted_of_signed settings (before ++ name ++ '=' :: chars) masked
    exact (both written).trans (both rewritten).symm

/-- Of a password that is not masked everything behind its last at sign is shown. -/
theorem redacted_of_unmasked {place : PasswordPlace} (unmasked : ¬ place.Masked)
    (settings : DatabaseSettings) {written rewritten : List Char}
    (alike : '@' ∈ written ↔ '@' ∈ rewritten) :
    (place.fill settings written).redacted = (place.fill settings rewritten).redacted ↔
      behindLastSign written = behindLastSign rewritten := by
  cases place with
  | field => exact absurd trivial unmasked
  | account before after => exact absurd trivial unmasked
  | parameter before name after =>
    have unsigned : '@' ∉ after := unmasked
    have covered : ∀ chars, '@' ∈ chars →
        ((parameter before name after).fill settings chars).redacted =
          "postgres://***@" ++ (String.ofList (behindLastSign chars) ++ String.ofList after) := by
      intro chars signed
      rw [fill, redacted_of_unsigned settings _ unsigned, List.append_cons,
        redacted_of_signed settings _ signed, redacted_withUrl, if_pos signed, String.append_assoc]
    have shown : ∀ chars, '@' ∉ chars →
        ((parameter before name after).fill settings chars).redacted =
          (settings.withUrl (before ++ name ++ ['='])).redacted ++
            (String.ofList (behindLastSign chars) ++ String.ofList after) := by
      intro chars plain
      rw [fill, redacted_of_unsigned settings _ unsigned, List.append_cons,
        redacted_of_unsigned settings _ plain, behindLastSign_of_unsigned plain, String.append_assoc]
    by_cases signed : '@' ∈ written
    · rw [covered written signed, covered rewritten (alike.mp signed), String.append_right_inj,
        String.append_left_inj, String.ofList_inj]
    · have plain : '@' ∉ rewritten := fun other => signed (alike.mpr other)
      rw [shown written signed, shown rewritten plain, String.append_right_inj,
        String.append_left_inj, String.ofList_inj]

end PasswordPlace

/-- Every password that a connection is made with is written in some place. Where the mask covers
the place, as it does the field and the account in front of the host, the password makes no
difference to what is shown; where it does not, what is shown tells passwords apart that differ
behind their last at sign, and so all that have none. -/
theorem masked_passwords_are_hidden (settings : DatabaseSettings) (place : PasswordPlace)
    (written rewritten : List Char) :
    (∀ (account : String) (target : Target) (secret : String),
      settings.target account = .ok target → target.password = some secret → secret ≠ "" →
        ∃ place written, settings = PasswordPlace.fill place settings written ∧
          place.Reads written secret) ∧
    (place.Masked →
      (place.fill settings written).redacted = (place.fill settings rewritten).redacted) ∧
    (¬ place.Masked → ('@' ∈ written ↔ '@' ∈ rewritten) →
      ((place.fill settings written).redacted = (place.fill settings rewritten).redacted ↔
        DatabaseSettings.behindLastSign written = DatabaseSettings.behindLastSign rewritten)) := by
  refine ⟨?_, ?_, ?_⟩
  · intro account target secret accepted given used
    exact PasswordPlace.exists_place accepted given used
  · intro masked
    exact PasswordPlace.redacted_of_masked masked settings written rewritten
  · intro unmasked alike
    exact PasswordPlace.redacted_of_unmasked unmasked settings alike

theorem flows_password_is_hidden :
    let account := PasswordPlace.account "postgres://app".toList "pg:5432/flows".toList
    let parameter := PasswordPlace.parameter "postgres://app@pg/flows?".toList "password".toList []
    let settings := account.fill {} "secret".toList
    (∃ place written, settings = PasswordPlace.fill place settings written ∧
      place.Reads written "secret") ∧
    settings.redacted = (account.fill {} "hunter2".toList).redacted ∧
    ((parameter.fill {} "secret".toList).redacted =
      (parameter.fill {} "hunter2".toList).redacted ↔
        DatabaseSettings.behindLastSign "secret".toList =
          DatabaseSettings.behindLastSign "hunter2".toList) := by
  intro account parameter settings
  let target : Target :=
    { host := "pg", username := "app", password := some "secret", database := some "flows" }
  have accepted : settings.target "taskflow" = .ok target := by decide +kernel
  have unsigned : '@' ∉ ([] : List Char) := List.not_mem_nil
  have found := masked_passwords_are_hidden settings account "secret".toList "hunter2".toList
  have shown := masked_passwords_are_hidden {} parameter "secret".toList "hunter2".toList
  refine ⟨?_, ?_, ?_⟩
  · exact found.1 "taskflow" target "secret" accepted rfl (by decide)
  · exact found.2.1 trivial
  · exact shown.2.2 unsigned (by decide)

/-- Both passwords are those of connections that are made, and the masked targets tell them apart. -/
theorem password_parameter_is_shown :
    let place := PasswordPlace.parameter "postgres://app@pg/flows?".toList "password".toList []
    let target (secret : String) : Target :=
      { host := "pg", username := "app", password := some secret, database := some "flows" }
    (place.fill {} "secret".toList).target "taskflow" = .ok (target "secret") ∧
      (place.fill {} "hunter2".toList).target "taskflow" = .ok (target "hunter2") ∧
      (place.fill {} "secret".toList).redacted ≠ (place.fill {} "hunter2".toList).redacted := by
  decide +kernel

end Workflow
