/-
`resource::Instances` of `transaction/manager/action.cpp`, `process::spawn` and `transaction/resource/proxy_server.cpp`:
what the manager spawns a proxy with, and what the proxy reads of it.
-/
import Casual.Common.Arguments
import Casual.Lib.Decimal

namespace Casual.Manager.Spawned

open Casual.Lib Casual.Common.Arguments
open Casual.Common.Environment (Text Failure cString)
open Casual.Common

/-! ## Spawning -/

/-- What `resource::Instances` spawns an instance with. -/
def instanceArguments (queue : Int) (key openinfo closeinfo : Text) (id : Int) (domain : Text) : List Text :=
  [bytes "--tm-queue", Decimal.ofInt queue, bytes "--rm-key", key, bytes "--rm-openinfo", openinfo,
    bytes "--rm-closeinfo", closeinfo, bytes "--rm-id", Decimal.ofInt id, bytes "--domain", domain]

/-- What a process gets for an argument: the environment is expanded, and a C string is passed. -/
def passed (getenv : Text → Option Text) (argument : Text) :
    Except Failure Text := do
  return cString (← Environment.string getenv argument)

/-- `process::spawn`, as far as the arguments go. -/
def spawn (getenv : Text → Option Text) (arguments : List Text) :
    Except Failure (List Text) := arguments.mapM (passed getenv)

/-! ## `casual_start_reource_proxy` -/

/-- `resource::State`, as far as it is set by arguments. -/
structure State where
  tmQueue : Int
  rmKey : Text
  rmOpeninfo : Text
  rmCloseinfo : Text
  rmId : Nat
  domain : Text
  deriving DecidableEq

/-- The directives of the proxy's main. -/
def directives : List Directive := arguments
  [one [bytes "-q", bytes "--tm-queue"], one [bytes "-k", bytes "--rm-key"], one [bytes "-o", bytes "--rm-openinfo"],
    one [bytes "-c", bytes "--rm-closeinfo"], one [bytes "-i", bytes "--rm-id"], one [bytes "-d", bytes "--domain"]]

/-- `std::isspace`. -/
def isSpace (c : UInt8) : Bool := c == 32 || (9 ≤ c && c ≤ 13)

/-- What an `std::istringstream` has of a text for an `int`, zero when there is none. -/
def convertInt (value : Text) : Int :=
  match Decimal.scan (value.dropWhile isSpace) with
  | none => 0
  | some i => max (-2 ^ 31) (min i (2 ^ 31 - 1))

/-- And for a `size_t`. -/
def convertSize (value : Text) : Nat :=
  match Decimal.scan (value.dropWhile isSpace) with
  | none => 0
  | some i => if 2 ^ 64 ≤ i.natAbs then 2 ^ 64 - 1 else (i % 2 ^ 64).toNat

/-- What the directives are bound to; the last one shows the help. -/
def bound (s : State) (call : Nat × List Text) : State :=
  match call.1, call.2.head? with
  | 0, some value => { s with tmQueue := convertInt value }
  | 1, some value => { s with rmKey := value }
  | 2, some value => { s with rmOpeninfo := value }
  | 3, some value => { s with rmCloseinfo := value }
  | 4, some value => { s with rmId := convertSize value }
  | 5, some value => { s with domain := value }
  | _, _ => s

/-- The state of a proxy that has parsed its arguments. -/
def start (arguments : List Text) : Except Exception State := do
  return (← parse directives arguments).foldl bound ⟨0, [], [], [], 0, []⟩

/-! ## What a proxy is passed -/

variable {getenv : Text → Option Text}

/-- A text without a variable is passed as it is. -/
theorem passed_plain {text : Text} (h : ∀ c ∈ text, c ∉ Environment.first ∧ c ≠ 0) : passed getenv text = .ok text := by
  have hsplit : Environment.split text = .ok (Environment.textBefore text) :=
    Environment.split_self fun c hc => (h c hc).1
  have hconcat := Environment.concat_textBefore getenv text []
  rw [List.append_nil] at hconcat
  have hstring : Environment.string getenv text = .ok text := by
    unfold Environment.string
    rw [hsplit]
    refine hconcat.trans ?_
    rw [Environment.concat]
    exact congrArg Except.ok (List.append_nil _)
  unfold passed
  rw [hstring]
  refine congrArg Except.ok (List.takeWhile_eq_self_iff.2 fun c hc => ?_)
  simpa using (h c hc).2

theorem plain_ofInt (i : Int) : ∀ c ∈ Decimal.ofInt i, c ∉ Environment.first ∧ c ≠ 0 := by
  intro c hc
  rcases Decimal.mem_ofInt hc with rfl | hdigit
  · decide
  · constructor
    · intro hmem
      have hcases : c = Environment.dollar ∨ c = Environment.opening := by simpa [Environment.first] using hmem
      rcases hcases with rfl | rfl
      · revert hdigit
        decide
      · revert hdigit
        decide
    · rintro rfl
      revert hdigit
      decide

/-- The options and the numbers are passed as they are. -/
theorem spawn_instance (queue : Int) (key openinfo closeinfo : Text) (id : Int) (domain : Text) :
    spawn getenv (instanceArguments queue key openinfo closeinfo id domain) = do
      let key ← passed getenv key
      let openinfo ← passed getenv openinfo
      let closeinfo ← passed getenv closeinfo
      let domain ← passed getenv domain
      return instanceArguments queue key openinfo closeinfo id domain := by
  have hplain : ∀ option ∈ ["--tm-queue", "--rm-key", "--rm-openinfo", "--rm-closeinfo", "--rm-id", "--domain"].map bytes,
      passed getenv option = .ok option := by
    intro option hoption
    apply passed_plain
    have hall : ∀ option ∈ ["--tm-queue", "--rm-key", "--rm-openinfo", "--rm-closeinfo", "--rm-id", "--domain"].map bytes,
        ∀ c ∈ option, c ∉ Environment.first ∧ c ≠ 0 := by decide +kernel
    exact hall option hoption
  unfold spawn instanceArguments
  simp only [List.mapM_cons, List.mapM_nil]
  rw [hplain (bytes "--tm-queue") (by simp), hplain (bytes "--rm-key") (by simp), hplain (bytes "--rm-openinfo") (by simp),
    hplain (bytes "--rm-closeinfo") (by simp), hplain (bytes "--rm-id") (by simp), hplain (bytes "--domain") (by simp),
    passed_plain (plain_ofInt queue), passed_plain (plain_ofInt id)]
  cases passed getenv key with
  | error failure => rfl
  | ok key =>
    cases passed getenv openinfo with
    | error failure => rfl
    | ok openinfo =>
      cases passed getenv closeinfo with
      | error failure => rfl
      | ok closeinfo => cases passed getenv domain <;> rfl

/-! ## What a proxy reads -/

/-- A number is written without a space before it. -/
theorem dropWhile_ofInt (i : Int) : (Decimal.ofInt i).dropWhile isSpace = Decimal.ofInt i := by
  have hspace : ∀ c ∈ Decimal.ofInt i, isSpace c = false := by
    intro c hc
    rcases Decimal.mem_ofInt hc with rfl | hdigit
    · decide
    · have hbounds : 48 ≤ c ∧ c ≤ 57 := by simpa [Decimal.isDigit] using hdigit
      rw [UInt8.le_iff_toNat_le] at hbounds
      have hne : c ≠ 32 := by
        rintro rfl
        exact absurd hbounds.1 (by decide)
      have hlt : ¬ c ≤ 13 := by
        rw [UInt8.le_iff_toNat_le]
        exact fun h => absurd (hbounds.1.trans h) (by decide)
      simp [isSpace, hne, hlt]
  cases h : Decimal.ofInt i with
  | nil => rfl
  | cons c text => exact List.dropWhile_cons_of_neg (by rw [hspace c (h ▸ List.mem_cons_self)]; decide)

theorem convertInt_ofInt {i : Int} (h : -2 ^ 31 ≤ i ∧ i < 2 ^ 31) : convertInt (Decimal.ofInt i) = i := by
  unfold convertInt
  rw [dropWhile_ofInt, Decimal.scan_ofInt]
  dsimp only
  omega

theorem convertSize_ofInt {i : Int} (h : -2 ^ 31 ≤ i ∧ i < 2 ^ 31) :
    convertSize (Decimal.ofInt i) = (i % 2 ^ 64).toNat := by
  unfold convertSize
  rw [dropWhile_ofInt, Decimal.scan_ofInt]
  dsimp only
  rw [if_neg (by omega)]

/-- A number is none of the options. -/
theorem isOption_ofInt (i : Int) : isOption directives (Decimal.ofInt i) = false := by
  have hletter : ∀ d ∈ directives, ∀ option ∈ d.options, ∃ c ∈ option, ¬(c = 45 ∨ Decimal.isDigit c = true) := by
    decide +kernel
  by_contra h
  obtain ⟨d, hd, hoption⟩ := List.any_eq_true.1 (by simpa using h : isOption directives (Decimal.ofInt i) = true)
  obtain ⟨c, hc, hnot⟩ := hletter d hd _ (List.contains_iff_mem.1 hoption)
  exact hnot (Decimal.mem_ofInt hc)

/-- The options and the values an instance is spawned with. -/
theorem owner_options : owner directives (bytes "--tm-queue") = some 0 ∧ owner directives (bytes "--rm-key") = some 1 ∧
    owner directives (bytes "--rm-openinfo") = some 2 ∧ owner directives (bytes "--rm-closeinfo") = some 3 ∧
    owner directives (bytes "--rm-id") = some 4 ∧ owner directives (bytes "--domain") = some 5 := by decide +kernel

/-- Each directive is called with the value of its option. -/
theorem dispatch_values (queue key openinfo closeinfo id domain : Text) :
    dispatch (assignLine directives [⟨bytes "--tm-queue", [queue]⟩, ⟨bytes "--rm-key", [key]⟩,
      ⟨bytes "--rm-openinfo", [openinfo]⟩, ⟨bytes "--rm-closeinfo", [closeinfo]⟩, ⟨bytes "--rm-id", [id]⟩,
      ⟨bytes "--domain", [domain]⟩]) =
      [(0, [queue]), (1, [key]), (2, [openinfo]), (3, [closeinfo]), (4, [id]), (5, [domain])] := by
  obtain ⟨hqueue, hkey, hopeninfo, hcloseinfo, hid, hdomain⟩ := owner_options
  simp only [assignLine, Line.taken, List.filter_cons, List.any_cons, hqueue, hkey, hopeninfo, hcloseinfo, hid, hdomain]
  rfl

theorem start_instance (key openinfo closeinfo domain : Text) {queue id : Int} (hqueue : -2 ^ 31 ≤ queue ∧ queue < 2 ^ 31)
    (hid : -2 ^ 31 ≤ id ∧ id < 2 ^ 31) : start (instanceArguments queue key openinfo closeinfo id domain) =
      if isOption directives key then .error (.invalidValues (bytes "--rm-key"))
      else if isOption directives openinfo then .error (.invalidValues (bytes "--rm-openinfo"))
      else if isOption directives closeinfo then .error (.invalidValues (bytes "--rm-closeinfo"))
      else if isOption directives domain then .error (.invalidValues (bytes "--domain"))
      else .ok ⟨queue, key, openinfo, closeinfo, (id % 2 ^ 64).toNat, domain⟩ := by
  have howners := owner_options
  obtain ⟨hqueueOwner, hkeyOwner, hopeninfoOwner, hcloseinfoOwner, hidOwner, hdomainOwner⟩ := howners
  have hassign := @assignAll_values
    [(bytes "--tm-queue", Decimal.ofInt queue), (bytes "--rm-key", key), (bytes "--rm-openinfo", openinfo),
      (bytes "--rm-closeinfo", closeinfo), (bytes "--rm-id", Decimal.ofInt id), (bytes "--domain", domain)] directives
    (by
      simp only [List.forall_mem_cons]
      exact ⟨⟨0, _, hqueueOwner, rfl, ⟨rfl, rfl⟩, rfl⟩, ⟨1, _, hkeyOwner, rfl, ⟨rfl, rfl⟩, rfl⟩,
        ⟨2, _, hopeninfoOwner, rfl, ⟨rfl, rfl⟩, rfl⟩, ⟨3, _, hcloseinfoOwner, rfl, ⟨rfl, rfl⟩, rfl⟩,
        ⟨4, _, hidOwner, rfl, ⟨rfl, rfl⟩, rfl⟩, ⟨5, _, hdomainOwner, rfl, ⟨rfl, rfl⟩, rfl⟩, by simp⟩)
    (by
      simp only [List.map_cons, List.map_nil, hqueueOwner, hkeyOwner, hopeninfoOwner, hcloseinfoOwner, hidOwner, hdomainOwner]
      decide)
  have hparse : parse directives (instanceArguments queue key openinfo closeinfo id domain) = _ := congrArg (Except.map dispatch) hassign
  unfold start
  rw [hparse]
  simp only [List.find?_cons, isOption_ofInt]
  cases isOption directives key with
  | true => rfl
  | false =>
    cases isOption directives openinfo with
    | true => rfl
    | false =>
      cases isOption directives closeinfo with
      | true => rfl
      | false =>
        cases isOption directives domain with
        | true => rfl
        | false =>
          show Except.ok (List.foldl bound _ (dispatch (assignLine directives [⟨_, _⟩, ⟨_, _⟩, ⟨_, _⟩, ⟨_, _⟩, ⟨_, _⟩, ⟨_, _⟩]))) = _
          rw [dispatch_values]
          show Except.ok (State.mk (convertInt (Decimal.ofInt queue)) key openinfo closeinfo
            (convertSize (Decimal.ofInt id)) domain) = _
          rw [convertInt_ofInt hqueue, convertSize_ofInt hid]
          rfl

/-- What a proxy has of what the manager spawns it with. What the four texts are expanded to, up to a null character,
is what is passed; if one of them cannot be, there is no proxy, and if what one of them is expanded to is an option of
the proxy, it does not start and tells whose value is missing. Otherwise it has the queue, the four texts and the id, the
latter as a `size_t`. -/
theorem proxy_is_told (getenv : Text → Option Text) (key openinfo closeinfo domain : Text) {queue id : Int}
    (hqueue : -2 ^ 31 ≤ queue ∧ queue < 2 ^ 31) (hid : -2 ^ 31 ≤ id ∧ id < 2 ^ 31) :
    (∃ text ∈ [key, openinfo, closeinfo, domain], ∃ failure, passed getenv text = .error failure ∧
      spawn getenv (instanceArguments queue key openinfo closeinfo id domain) = .error failure) ∨
      ∃ key' openinfo' closeinfo' domain' arguments, passed getenv key = .ok key' ∧ passed getenv openinfo = .ok openinfo' ∧
        passed getenv closeinfo = .ok closeinfo' ∧ passed getenv domain = .ok domain' ∧
        spawn getenv (instanceArguments queue key openinfo closeinfo id domain) = .ok arguments ∧
        start arguments =
          if isOption directives key' then .error (.invalidValues (bytes "--rm-key"))
          else if isOption directives openinfo' then .error (.invalidValues (bytes "--rm-openinfo"))
          else if isOption directives closeinfo' then .error (.invalidValues (bytes "--rm-closeinfo"))
          else if isOption directives domain' then .error (.invalidValues (bytes "--domain"))
          else .ok ⟨queue, key', openinfo', closeinfo', (id % 2 ^ 64).toNat, domain'⟩ := by
  rw [spawn_instance]
  cases hkey : passed getenv key with
  | error failure => exact .inl ⟨key, by simp, failure, hkey, rfl⟩
  | ok key' =>
    cases hopeninfo : passed getenv openinfo with
    | error failure => exact .inl ⟨openinfo, by simp, failure, hopeninfo, rfl⟩
    | ok openinfo' =>
      cases hcloseinfo : passed getenv closeinfo with
      | error failure => exact .inl ⟨closeinfo, by simp, failure, hcloseinfo, rfl⟩
      | ok closeinfo' =>
        cases hdomain : passed getenv domain with
        | error failure => exact .inl ⟨domain, by simp, failure, hdomain, rfl⟩
        | ok domain' =>
          exact .inr ⟨key', openinfo', closeinfo', domain', _, rfl, rfl, rfl, rfl, rfl,
            start_instance key' openinfo' closeinfo' domain' hqueue hid⟩

/-- A text with a variable, another with a space, and an empty one. -/
theorem instance_is_told : ∃ arguments,
    spawn (fun _ => some (bytes "casual")) (instanceArguments 5 (bytes "db2") (bytes "db = ${NAME}") [] 3 (bytes "domain1")) =
      .ok arguments ∧
      start arguments = .ok ⟨5, bytes "db2", bytes "db = casual", [], 3, bytes "domain1"⟩ := by
  have hpassed : passed (fun _ => some (bytes "casual")) (bytes "db2") = .ok (bytes "db2") ∧
      passed (fun _ => some (bytes "casual")) (bytes "db = ${NAME}") = .ok (bytes "db = casual") ∧
      passed (fun _ => some (bytes "casual")) [] = .ok [] ∧
      passed (fun _ => some (bytes "casual")) (bytes "domain1") = .ok (bytes "domain1") := by decide +kernel
  obtain ⟨hkey, hopeninfo, hcloseinfo, hdomain⟩ := hpassed
  rcases @proxy_is_told (fun _ => some (bytes "casual")) (bytes "db2") (bytes "db = ${NAME}") [] (bytes "domain1") 5 3
    (by decide) (by decide) with
    ⟨text, htext, failure, hfailure, -⟩ | ⟨key, openinfo, closeinfo, domain, arguments, hkey', hopeninfo', hcloseinfo', hdomain',
      hspawn, hstart⟩
  · simp only [List.mem_cons, List.not_mem_nil, or_false] at htext
    rcases htext with rfl | rfl | rfl | rfl
    · cases hkey.symm.trans hfailure
    · cases hopeninfo.symm.trans hfailure
    · cases hcloseinfo.symm.trans hfailure
    · cases hdomain.symm.trans hfailure
  · obtain rfl := Except.ok.inj (hkey.symm.trans hkey')
    obtain rfl := Except.ok.inj (hopeninfo.symm.trans hopeninfo')
    obtain rfl := Except.ok.inj (hcloseinfo.symm.trans hcloseinfo')
    obtain rfl := Except.ok.inj (hdomain.symm.trans hdomain')
    exact ⟨arguments, hspawn, hstart.trans (by decide +kernel)⟩

end Casual.Manager.Spawned
