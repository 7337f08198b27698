import FleetBoard.Proofs.Fleet.Pool
import FleetBoard.Proofs.Text.Pieces

/-!
# Host lists and their hosts

A host list is cut at its commas, and each piece that is not blank has to tell a host: a name, an
equals sign and an address. What a piece tells can be said without trimming it first
(`parse?_trim`), and a list of hosts that comes of this can be written as a list again
(`Listable.tells_display`), since nothing in a name can be taken for what ends it.
-/

namespace FleetBoard

open Text (Pieces isBlank isAllBlank)

namespace HostConfig

/-! ### Pieces that tell a host -/

def namePart (piece : List Char) : List Char := piece.takeWhile (· ≠ '=')

def urlPart (piece : List Char) : List Char := (piece.dropWhile (· ≠ '=')).drop 1

structure TellsHost (piece : List Char) : Prop where
  separated : '=' ∈ piece
  named : isAllBlank (namePart piece) = false
  colonless : ':' ∉ namePart piece
  addressed : isAllBlank (urlPart piece) = false

def told (piece : List Char) : HostConfig :=
  ⟨String.ofList (Text.trim (namePart piece)), String.ofList (Text.trim (urlPart piece))⟩

variable {piece : List Char} {h : HostConfig}

theorem splitFirst_eq (piece : List Char) :
    Text.splitFirst (· == '=') piece =
      if '=' ∈ piece then some (namePart piece, urlPart piece) else none := by
  have others : (fun c : Char => !(c == '=')) = fun c => decide (c ≠ '=') := by
    funext c
    by_cases c = '=' <;> simp_all
  have ends : piece.dropWhile (fun c => decide (c ≠ '=')) = [] ↔ '=' ∉ piece := by
    simp [List.dropWhile_eq_nil_iff, List.forall_mem_ne']
  rw [Text.splitFirst, others, namePart, urlPart]
  split
  · next nothing => rw [if_neg (ends.mp nothing)]
  · next c rest found =>
      have separated : '=' ∈ piece := by
        by_contra missing
        rw [ends.mpr missing] at found
        cases found
      rw [if_pos separated, found, List.drop_one, List.tail_cons]

theorem isEmpty_trim (s : List Char) : (Text.trim s).isEmpty = isAllBlank s := by
  rw [Bool.eq_iff_iff, List.isEmpty_iff, Text.trim, Text.trimBy_eq_nil_iff, isAllBlank,
    List.all_eq_true]

theorem contains_trim {c : Char} (plain : isBlank c = false) (s : List Char) :
    (Text.trim s).contains c = s.contains c := by
  rw [Bool.eq_iff_iff, List.contains_iff_mem, List.contains_iff_mem]
  exact Text.mem_trimBy_iff plain

/-- Blanks around a piece make no difference to the parts that are read of it. -/
theorem parse?_trim (piece : List Char) : parse? (Text.trim piece) = parse? piece := by
  have parts : (Text.splitFirst (· == '=') (Text.trim piece)).map (Prod.map Text.trim Text.trim) =
      (Text.splitFirst (· == '=') piece).map (Prod.map Text.trim Text.trim) := by
    refine Text.parts_trimBy ?_ piece
    intro c blank
    rw [beq_eq_false_iff_ne]
    rintro rfl
    cases blank
  rw [parse?, parse?]
  cases first : Text.splitFirst (· == '=') (Text.trim piece) with
  | none =>
      rw [first, Option.map_none, eq_comm, Option.map_eq_none_iff] at parts
      rw [parts]
  | some trimmed =>
      rw [first, Option.map_some, eq_comm, Option.map_eq_some_iff] at parts
      obtain ⟨whole, second, same⟩ := parts
      obtain ⟨name, url⟩ := trimmed
      obtain ⟨name', url'⟩ := whole
      obtain ⟨sameName, sameUrl⟩ := Prod.mk.inj same
      rw [second]
      dsimp only
      rw [sameName, sameUrl]

theorem parse?_eq_ok_iff : parse? piece = .ok h ↔ TellsHost piece ∧ h = told piece := by
  rw [parse?, splitFirst_eq]
  by_cases separated : '=' ∈ piece
  · rw [if_pos separated]
    dsimp only
    rw [isEmpty_trim, isEmpty_trim, contains_trim (by decide)]
    constructor
    · intro read
      have named : isAllBlank (namePart piece) = false := by
        by_contra blank
        rw [Bool.not_eq_false] at blank
        simp [blank] at read
      have colonless : ':' ∉ namePart piece := by
        intro inside
        simp [named, inside] at read
      have addressed : isAllBlank (urlPart piece) = false := by
        by_contra blank
        rw [Bool.not_eq_false] at blank
        simp [named, colonless, blank] at read
      have host : told piece = h := by simpa [named, colonless, addressed, told] using read
      exact ⟨⟨separated, named, colonless, addressed⟩, host.symm⟩
    · rintro ⟨⟨-, named, colonless, addressed⟩, rfl⟩
      simp [named, colonless, addressed, told]
  · rw [if_neg separated]
    simp only [reduceCtorEq, false_iff]
    rintro ⟨tells, -⟩
    exact separated tells.separated

/-! ### Lists -/

/-- Reading all elements of a list goes well if each goes well, and gives what each gives. -/
theorem mapM_eq_ok_iff {α β ε : Type} {f : α → Except ε β} {P : α → Prop} {g : α → β}
    (each : ∀ a b, f a = .ok b ↔ P a ∧ b = g a) (l : List α) (r : List β) :
    l.mapM f = .ok r ↔ (∀ a ∈ l, P a) ∧ r = l.map g := by
  induction l generalizing r with
  | nil => simp [pure, Except.pure, eq_comm]
  | cons a l ih =>
      rw [List.mapM_cons, List.forall_mem_cons, List.map_cons]
      constructor
      · intro read
        cases first : f a with
        | error e =>
            rw [first] at read
            cases read
        | ok b =>
            rw [first] at read
            cases later : l.mapM f with
            | error e =>
                rw [later] at read
                cases read
            | ok rest =>
                rw [later] at read
                obtain ⟨good, rfl⟩ := (each a b).mp first
                obtain ⟨others, rfl⟩ := (ih rest).mp later
                exact ⟨⟨good, others⟩, (Except.ok.inj read).symm⟩
      · rintro ⟨⟨good, others⟩, rfl⟩
        rw [(each a (g a)).mpr ⟨good, rfl⟩, (ih (l.map g)).mpr ⟨others, rfl⟩]
        rfl

theorem firstRepeated_eq_none_iff {names : List String} {hosts : List HostConfig} :
    firstRepeated names hosts = none ↔
      (hosts.map (·.name)).Nodup ∧ ∀ host ∈ hosts, host.name ∉ names := by
  induction hosts generalizing names with
  | nil => simp [firstRepeated]
  | cons host hosts ih =>
      rw [firstRepeated]
      split
      · next repeated =>
          have before : host.name ∈ names := List.contains_iff_mem.mp repeated
          simp [before]
      · next fresh =>
          have new : host.name ∉ names := fun inside => fresh (List.contains_iff_mem.mpr inside)
          rw [ih, List.map_cons, List.nodup_cons, List.forall_mem_cons]
          simp only [List.mem_cons, not_or, List.mem_map, not_exists, not_and]
          grind

theorem ensureUnique_eq_ok_iff {hosts : List HostConfig} :
    ensureUnique hosts = .ok () ↔ (hosts.map (·.name)).Nodup := by
  have none : firstRepeated [] hosts = none ↔ (hosts.map (·.name)).Nodup := by
    rw [firstRepeated_eq_none_iff]
    simp
  rw [← none, ensureUnique]
  split <;> simp_all

def filled (pieces : List (List Char)) : List (List Char) :=
  pieces.filter fun piece => !isAllBlank piece

theorem entries_eq (list : String) :
    entries list = (filled (Text.splitAll (· == ',') list.toList)).map fun piece =>
      String.ofList (Text.trim piece) := by
  rw [entries, List.filter_map, List.map_map, filled]
  simp only [Function.comp_def, isEmpty_trim]

theorem parse_ofList_trim_eq_ok_iff : parse (String.ofList (Text.trim piece)) = .ok h ↔
    TellsHost piece ∧ h = told piece := by
  rw [← parse?_eq_ok_iff, parse, String.toList_ofList, parse?_trim]
  cases parse? piece <;> simp

/-- A host list is read if each piece that is not blank tells a host and their names differ. -/
theorem parseList_eq_ok_iff {list : String} {pieces : List (List Char)}
    (cut : Pieces ',' list.toList pieces) {hosts : List HostConfig} :
    parseList list = .ok hosts ↔
      (∀ piece ∈ filled pieces, TellsHost piece) ∧ hosts = (filled pieces).map told ∧
        (hosts.map (·.name)).Nodup := by
  have read : ∀ hosts, (entries list).mapM parse = .ok hosts ↔
      (∀ piece ∈ filled pieces, TellsHost piece) ∧ hosts = (filled pieces).map told := by
    intro hosts
    rw [entries_eq, Text.pieces_iff.mp cut, List.mapM_map]
    exact mapM_eq_ok_iff (fun _ _ => parse_ofList_trim_eq_ok_iff) _ _
  rw [parseList, ← and_assoc, ← read, ← ensureUnique_eq_ok_iff]
  cases (entries list).mapM parse with
  | error e => simp
  | ok found =>
      dsimp only
      rw [Except.ok.injEq]
      constructor
      · intro accepted
        split at accepted
        · cases accepted
        · next unique =>
            obtain rfl := Except.ok.inj accepted
            exact ⟨rfl, unique⟩
      · rintro ⟨rfl, unique⟩
        rw [unique]

/-! ### Hosts that a list can tell -/

/-- A host that a host list can tell: its name and its address are there, without blanks around
them, and hold nothing that would end the name or the piece before its end. -/
structure Listable (h : HostConfig) : Prop where
  named : h.name ≠ ""
  name_trimmed : Text.trimString h.name = h.name
  name_plain : '=' ∉ h.name.toList ∧ ':' ∉ h.name.toList ∧ ',' ∉ h.name.toList
  addressed : h.url ≠ ""
  url_trimmed : Text.trimString h.url = h.url
  url_plain : ',' ∉ h.url.toList

theorem TellsHost.not_blank (tells : TellsHost piece) : isAllBlank piece = false := by
  rw [← Bool.not_eq_true, isAllBlank, List.all_eq_true]
  intro blank
  exact absurd (blank '=' tells.separated) (by decide)

theorem ofList_trim_ne_empty {s : List Char} (some : isAllBlank s = false) :
    String.ofList (Text.trim s) ≠ "" := by
  intro empty
  have nothing : Text.trim s = [] := by simpa using congrArg String.toList empty
  rw [← isEmpty_trim, nothing] at some
  cases some

theorem trimString_ofList_trim (s : List Char) :
    Text.trimString (String.ofList (Text.trim s)) = String.ofList (Text.trim s) := by
  rw [Text.trimString, String.toList_ofList, Text.trim, Text.trim, Text.trimBy_trimBy]

theorem listable_told (tells : TellsHost piece) (free : ',' ∉ piece) : Listable (told piece) := by
  have within : ∀ c ∈ (told piece).name.toList, c ∈ namePart piece := by
    intro c inside
    rw [told, String.toList_ofList] at inside
    exact (Text.isInfix_trimBy (namePart piece)).subset inside
  have ofPiece : ∀ c ∈ namePart piece, c ∈ piece := fun c inside => (List.takeWhile_subset _) inside
  refine ⟨ofList_trim_ne_empty tells.named, trimString_ofList_trim _, ⟨?_, ?_, ?_⟩,
    ofList_trim_ne_empty tells.addressed, trimString_ofList_trim _, ?_⟩
  · intro inside
    simpa using List.mem_takeWhile_imp (within '=' inside)
  · exact fun inside => tells.colonless (within ':' inside)
  · exact fun inside => free (ofPiece ',' (within ',' inside))
  · intro inside
    rw [told, String.toList_ofList] at inside
    have later : ',' ∈ urlPart piece := (Text.isInfix_trimBy (urlPart piece)).subset inside
    exact free ((List.dropWhile_sublist _).subset (List.mem_of_mem_drop later))

theorem toList_display (h : HostConfig) :
    h.display.toList = h.name.toList ++ '=' :: h.url.toList := by
  simp [display]

/-- A host that is written tells itself. -/
theorem Listable.tells_display (listable : Listable h) :
    TellsHost h.display.toList ∧ told h.display.toList = h := by
  have before : ∀ c ∈ h.name.toList, decide (c ≠ '=') = true := by
    intro c inside
    rw [decide_eq_true_iff]
    rintro rfl
    exact listable.name_plain.1 inside
  have name : namePart h.display.toList = h.name.toList := by
    rw [namePart, toList_display, List.takeWhile_append_of_pos before]
    simp
  have url : urlPart h.display.toList = h.url.toList := by
    rw [urlPart, toList_display, List.dropWhile_append_of_pos before]
    simp
  have kept : ∀ s : String, s ≠ "" → Text.trimString s = s → isAllBlank s.toList = false := by
    intro s some trimmed
    rw [← isEmpty_trim, ← Bool.not_eq_true, List.isEmpty_iff]
    intro nothing
    rw [Text.trimString, nothing] at trimmed
    exact some trimmed.symm
  refine ⟨⟨?_, ?_, ?_, ?_⟩, ?_⟩
  · simp [toList_display]
  · rw [name]
    exact kept h.name listable.named listable.name_trimmed
  · rw [name]
    exact listable.name_plain.2.1
  · rw [url]
    exact kept h.url listable.addressed listable.url_trimmed
  · rw [told, name, url]
    exact congrArg₂ HostConfig.mk listable.name_trimmed listable.url_trimmed

/-- Hosts that a list can tell are read back from it as they are written. -/
theorem parseList_display {hosts : List HostConfig} (listable : ∀ h ∈ hosts, Listable h)
    (distinct : (hosts.map (·.name)).Nodup) :
    parseList (",".intercalate (hosts.map display)) = .ok hosts := by
  have tells : ∀ h ∈ hosts, TellsHost h.display.toList ∧ told h.display.toList = h :=
    fun h inside => (listable h inside).tells_display
  cases hosts with
  | nil => rfl
  | cons host hosts =>
      -- The pieces of the list that is written are the hosts as they are written, and none of them
      -- is blank.
      have cut : Pieces ',' (",".intercalate ((host :: hosts).map display)).toList
          ((host :: hosts).map fun h => h.display.toList) := by
        refine ⟨List.cons_ne_nil _ _, ?_, ?_⟩
        · intro piece inside
          obtain ⟨h, member, rfl⟩ := List.mem_map.mp inside
          simpa [toList_display] using
            ⟨(listable h member).name_plain.2.2, (listable h member).url_plain⟩
        · rw [String.toList_intercalate, List.map_map]
          rfl
      have all : filled ((host :: hosts).map fun h => h.display.toList) =
          (host :: hosts).map fun h => h.display.toList := by
        rw [filled, List.filter_eq_self]
        intro piece inside
        obtain ⟨h, member, rfl⟩ := List.mem_map.mp inside
        rw [(tells h member).1.not_blank]
        rfl
      rw [parseList_eq_ok_iff cut, all]
      refine ⟨?_, ?_, distinct⟩
      · intro piece inside
        obtain ⟨h, member, rfl⟩ := List.mem_map.mp inside
        exact (tells h member).1
      · rw [List.map_map, eq_comm]
        refine (List.map_congr_left ?_).trans (List.map_id _)
        intro h member
        exact (tells h member).2

/-- Hosts that are read of a list, by the pieces between its commas. -/
structure ReadFrom (pieces : List (List Char)) (hosts : List HostConfig) : Prop where
  told : hosts = (filled pieces).map told
  listable : ∀ h ∈ hosts, Listable h
  unique : ensureUnique hosts = .ok ()
  /-- The list in which they are written is read as the same hosts. -/
  again : parseList (",".intercalate (hosts.map display)) = .ok hosts
  /-- A pool takes all of them, whatever their engines are. -/
  pooled : ∀ {ε : Type} (entries : List (HostConfig × ε)), entries.map (·.1) = hosts →
    ∃ pool, entries.foldlM (fun pool e => pool.insert e.1 e.2) ({} : HostPool ε) = .ok pool ∧
      pool.hosts = hosts

/-- A host list is read exactly if each of its pieces between commas that is not blank tells a host
and no two of these have one name; it is then the list of the hosts that the pieces tell, in their
order. -/
theorem parseList_of_pieces (list : String) : ∃ pieces, Pieces ',' list.toList pieces ∧
    ((∃ hosts, parseList list = .ok hosts) ↔
      (∀ piece ∈ filled pieces, TellsHost piece) ∧
        (((filled pieces).map told).map (·.name)).Nodup) ∧
    ∀ hosts, parseList list = .ok hosts → ReadFrom pieces hosts := by
  obtain ⟨pieces, cut⟩ : ∃ pieces, Pieces ',' list.toList pieces := ⟨_, Text.pieces_iff.mpr rfl⟩
  refine ⟨pieces, cut, ?_, ?_⟩
  · constructor
    · rintro ⟨hosts, read⟩
      obtain ⟨tell, rfl, distinct⟩ := (parseList_eq_ok_iff cut).mp read
      exact ⟨tell, distinct⟩
    · rintro ⟨tell, distinct⟩
      exact ⟨_, (parseList_eq_ok_iff cut).mpr ⟨tell, rfl, distinct⟩⟩
  · intro hosts read
    obtain ⟨tell, same, distinct⟩ := (parseList_eq_ok_iff cut).mp read
    have listable : ∀ h ∈ hosts, Listable h := by
      intro h inside
      rw [same] at inside
      obtain ⟨piece, member, rfl⟩ := List.mem_map.mp inside
      exact listable_told (tell piece member) (cut.clear piece (List.mem_of_mem_filter member))
    refine {
      told := same
      listable := listable
      unique := ensureUnique_eq_ok_iff.mpr distinct
      again := parseList_display listable distinct
      pooled := ?_ }
    rintro ε entries rfl
    rw [List.map_map] at distinct
    obtain ⟨pool, registered, hosts⟩ :=
      HostPool.exists_foldlM_insert {} entries distinct fun _ _ => List.not_mem_nil
    exact ⟨pool, registered, hosts⟩

/-- Two hosts, blanks and empty pieces around them, and an equals sign in an address. -/
def spacedOut : String := " ,\tlocal = local ,, edge=tcp://edge:2375/?a=b,"

theorem parseList_of_pieces_spacedOut :
    let hosts : List HostConfig := [⟨"local", "local"⟩, ⟨"edge", "tcp://edge:2375/?a=b"⟩]
    parseList spacedOut = .ok hosts ∧
      parseList "local=local,edge=tcp://edge:2375/?a=b" = .ok hosts := by
  intro hosts
  have read : parseList spacedOut = .ok hosts := by decide
  obtain ⟨_, -, -, results⟩ := parseList_of_pieces spacedOut
  exact ⟨read, (results hosts read).again⟩

end HostConfig

end FleetBoard
