import EscapeRoom.Proofs.LineMeaning

/-!
# The grammar of what a container is run with

The words after `docker run` are cut from the left into segments: a flag with the word behind it,
whatever that word is, and any other word alone.  A flag at the end has no word behind it and makes
the words malformed.  Otherwise the last segment of each kind counts, so a request is well formed
when there is one of each kind and the last name and the last ports are.

* `RunWords.split`, `RunWords.words` — cutting words into segments, and putting them together again.
* `RunWords.words_split`, `RunWords.split_words` — there is exactly one way to cut.
* `RunOptions.read_words` — reading the words is taking the segments one after the other.
* `RunRequest.run_arguments_are_segments` — what is read, and what may change without a difference.
-/

namespace EscapeRoom

/-! ### Segments -/

/-- The words that take the word behind them as their value. -/
inductive RunFlag
  | name
  | ports
  deriving DecidableEq, Repr

namespace RunFlag

def word : RunFlag → String
  | name => "--name"
  | ports => "-p"

/-- The flag that a word is. -/
def ofWord? (w : String) : Option RunFlag :=
  if w = "--name" then some name else if w = "-p" then some ports else none

@[simp] theorem ofWord?_word (flag : RunFlag) : ofWord? flag.word = some flag := by
  cases flag <;> decide

theorem word_of_ofWord? {w : String} {flag : RunFlag} (h : ofWord? w = some flag) :
    flag.word = w := by
  unfold ofWord? at h
  split at h
  · rename_i hw
    cases h
    exact hw.symm
  · split at h
    · rename_i hw
      cases h
      exact hw.symm
    · cases h

end RunFlag

/-- A segment of the words after `docker run`. -/
inductive RunSegment
  /-- A flag with its value. -/
  | option (flag : RunFlag) (value : String)
  /-- A word that is no flag. -/
  | image (word : String) (free : RunFlag.ofWord? word = none)
  deriving DecidableEq

namespace RunSegment

/-- The words of a segment. -/
def words : RunSegment → List String
  | option flag value => [flag.word, value]
  | image word _ => [word]

/-- The value that a segment gives to a flag. -/
def value? (flag : RunFlag) : RunSegment → Option String
  | option other value => if other = flag then some value else none
  | image _ _ => none

/-- The image that a segment names. -/
def image? : RunSegment → Option String
  | option _ _ => none
  | image word _ => some word

end RunSegment

/-- Words cut into segments, with the flag at their end that has no value, if there is one. -/
structure RunWords where
  segments : List RunSegment
  dangling : Option RunFlag
  deriving DecidableEq

namespace RunWords

/-- The words that were cut. -/
def words (cut : RunWords) : List String :=
  cut.segments.flatMap RunSegment.words ++ (cut.dangling.map RunFlag.word).toList

/-- One segment more, in front. -/
def cons (segment : RunSegment) (cut : RunWords) : RunWords :=
  { cut with segments := segment :: cut.segments }

/-- Cuts words into segments from the left. -/
def split : List String → RunWords
  | [] => ⟨[], none⟩
  | [word] =>
      match h : RunFlag.ofWord? word with
      | some flag => ⟨[], some flag⟩
      | none => ⟨[.image word h], none⟩
  | word :: next :: rest =>
      match h : RunFlag.ofWord? word with
      | some flag => (split rest).cons (.option flag next)
      | none => (split (next :: rest)).cons (.image word h)

/-- The values of a flag, in their order. -/
def values (cut : RunWords) (flag : RunFlag) : List String :=
  cut.segments.filterMap (RunSegment.value? flag)

/-- The words of their own, in their order. -/
def images (cut : RunWords) : List String := cut.segments.filterMap RunSegment.image?

@[simp] theorem words_cons (segment : RunSegment) (cut : RunWords) :
    (cut.cons segment).words = segment.words ++ cut.words := by
  simp only [cons, words, List.flatMap_cons, List.append_assoc]

theorem split_flag (flag : RunFlag) : split [flag.word] = ⟨[], some flag⟩ := by
  cases flag <;> rfl

theorem split_option (flag : RunFlag) (value : String) (rest : List String) :
    split (flag.word :: value :: rest) = (split rest).cons (.option flag value) := by
  rw [split]
  split
  · rename_i other h
    rw [RunFlag.ofWord?_word, Option.some.injEq] at h
    rw [h]
  · rename_i h
    rw [RunFlag.ofWord?_word] at h
    cases h

theorem split_image {word : String} (free : RunFlag.ofWord? word = none) (rest : List String) :
    split (word :: rest) = (split rest).cons (.image word free) := by
  cases rest with
  | nil =>
      unfold split
      split
      · rename_i flag h
        rw [free] at h
        cases h
      · rfl
  | cons next rest =>
      rw [split]
      split
      · rename_i flag h
        rw [free] at h
        cases h
      · rfl

/-- Cutting loses no word. -/
theorem words_split (args : List String) : (split args).words = args := by
  induction args using split.induct with
  | case1 => rfl
  | case2 word flag h =>
      rw [← RunFlag.word_of_ofWord? h, split_flag]
      rfl
  | case3 word free => rw [split_image free]; rfl
  | case4 word next rest flag h ih =>
      rw [← RunFlag.word_of_ofWord? h, split_option, words_cons, ih]
      rfl
  | case5 word next rest free ih =>
      rw [split_image free, words_cons, ih]
      rfl

/-- There is no other way to cut. -/
theorem split_words (cut : RunWords) : split cut.words = cut := by
  obtain ⟨segments, dangling⟩ := cut
  induction segments with
  | nil =>
      cases dangling with
      | none => rfl
      | some flag => exact split_flag flag
  | cons segment segments ih =>
      have hwords : (RunWords.mk (segment :: segments) dangling).words =
          segment.words ++ (RunWords.mk segments dangling).words := words_cons segment ⟨_, _⟩
      rw [hwords]
      cases segment with
      | option flag value =>
          rw [RunSegment.words, List.cons_append, List.singleton_append, split_option, ih]
          rfl
      | image word free =>
          rw [RunSegment.words, List.singleton_append, split_image free, ih]
          rfl

end RunWords

/-! ### Reading segments -/

namespace RunOptions

/-- What a segment adds to the arguments before it. -/
def take (opts : RunOptions) : RunSegment → RunOptions
  | .option .name value => { opts with name := some value }
  | .option .ports value => { opts with ports := some value }
  | .image word _ => { opts with image := some word }

theorem read_flag (opts : RunOptions) (flag : RunFlag) : opts.read [flag.word] = .none := by
  cases flag <;> rfl

theorem read_segment (opts : RunOptions) (segment : RunSegment) (rest : List String) :
    opts.read (segment.words ++ rest) = (opts.take segment).read rest := by
  cases segment with
  | option flag value =>
      cases flag with
      | name => rw [RunSegment.words, List.cons_append, List.cons_append, read]; rfl
      | ports => rw [RunSegment.words, List.cons_append, List.cons_append, read]; rfl
  | image word free =>
      have hfree : word ≠ "--name" ∧ word ≠ "-p" := by
        constructor <;> rintro rfl <;> exact absurd free (by decide)
      cases rest with
      | nil =>
          rw [RunSegment.words, List.append_nil, read, read]
          simp only [hfree.1, hfree.2, decide_false, Bool.or_self, Bool.false_eq_true, if_false]
          rfl
      | cons next rest =>
          rw [RunSegment.words, List.singleton_append, read]
          simp only [hfree.1, hfree.2, if_false]
          rfl

/-- Reading words is taking their segments one after the other, unless a flag is left over. -/
theorem read_words (opts : RunOptions) (cut : RunWords) :
    opts.read cut.words =
      if cut.dangling = .none then some (cut.segments.foldl take opts) else .none := by
  obtain ⟨segments, dangling⟩ := cut
  induction segments generalizing opts with
  | nil =>
      cases dangling with
      | none => rfl
      | some flag => exact opts.read_flag flag
  | cons segment segments ih =>
      have hwords : (RunWords.mk (segment :: segments) dangling).words =
          segment.words ++ (RunWords.mk segments dangling).words :=
        RunWords.words_cons segment ⟨_, _⟩
      rw [hwords, read_segment, ih]
      rfl

/-- Of each kind the last segment counts. -/
theorem foldl_take (segments : List RunSegment) :
    segments.foldl take none =
      ⟨(segments.filterMap (RunSegment.value? .name)).getLast?,
        (segments.filterMap (RunSegment.value? .ports)).getLast?,
        (segments.filterMap RunSegment.image?).getLast?⟩ := by
  induction segments using List.reverseRecOn with
  | nil => rfl
  | append_singleton segments segment ih =>
      rw [List.foldl_append, ih]
      simp only [List.filterMap_append]
      cases segment with
      | option flag value => cases flag <;> simp [take, RunSegment.value?, RunSegment.image?]
      | image word free => simp [take, RunSegment.value?, RunSegment.image?]

end RunOptions

/-! ### Requests -/

namespace RunWords

/-- Whether words ask for a request: no flag is left over, and the request is made of the last
segments of each kind, a name of letters, digits, `_` and `-`, and digits on both sides of the
ports. -/
structure AsksFor (cut : RunWords) (r : RunRequest) : Prop where
  dangling : cut.dangling = none
  name : (cut.values .name).getLast? = some r.name
  isName : r.name ≠ "" ∧ ∀ c ∈ r.name.toList, c.isAlphanum = true ∨ c = '_' ∨ c = '-'
  ports : (cut.values .ports).getLast? = some r.ports.text
  arePorts : IsNumeral r.ports.host ∧ IsNumeral r.ports.container
  image : cut.images.getLast? = some r.image

/-- Whether words end alike: a flag is left over at the end of both or of none, and the last segment
of each kind is the same. -/
structure EndAlike (cut other : RunWords) : Prop where
  dangling : cut.dangling = none ↔ other.dangling = none
  values : ∀ flag, (cut.values flag).getLast? = (other.values flag).getLast?
  images : cut.images.getLast? = other.images.getLast?

/-- Whether words have the same segments, those of one kind in the same order. -/
structure Rearranged (cut other : RunWords) : Prop where
  dangling : cut.dangling = other.dangling
  segments : cut.segments.Perm other.segments
  values : ∀ flag, cut.values flag = other.values flag
  images : cut.images = other.images

theorem Rearranged.endAlike {cut other : RunWords} (h : cut.Rearranged other) :
    cut.EndAlike other where
  dangling := by rw [h.dangling]
  values flag := by rw [h.values]
  images := by rw [h.images]

end RunWords

namespace RunRequest

theorem ofWords?_words_eq_some_iff {cut : RunWords} {r : RunRequest} :
    ofWords? cut.words = some r ↔ cut.AsksFor r := by
  rw [ofWords?_eq_some_iff, RunOptions.read_words]
  by_cases hdangling : cut.dangling = none
  · rw [if_pos hdangling, RunOptions.foldl_take]
    constructor
    · rintro ⟨opts, hopts, hname, hvalid, hports, himage⟩
      cases hopts
      obtain ⟨raw, hraw, hparsed⟩ := Option.bind_eq_some_iff.1 hports
      obtain ⟨hhost, hcontainer, rfl⟩ := PortMapping.ofText?_eq_some_iff.1 hparsed
      exact ⟨hdangling, hname, isContainerName_iff.1 hvalid, hraw, ⟨hhost, hcontainer⟩, himage⟩
    · intro h
      have hparsed : PortMapping.ofText? r.ports.text = some r.ports :=
        PortMapping.ofText?_text h.arePorts.1 h.arePorts.2
      exact ⟨_, rfl, h.name, isContainerName_iff.2 h.isName,
        Option.bind_eq_some_iff.2 ⟨_, h.ports, hparsed⟩, h.image⟩
  · rw [if_neg hdangling]
    constructor
    · rintro ⟨opts, hopts, -⟩
      cases hopts
    · intro h
      exact absurd h.dangling hdangling

/-- Words that end alike ask for the same. -/
theorem ofWords?_words_congr {cut other : RunWords} (h : cut.EndAlike other) :
    ofWords? cut.words = ofWords? other.words := by
  apply Option.ext
  intro r
  rw [ofWords?_words_eq_some_iff, ofWords?_words_eq_some_iff]
  constructor
  · rintro ⟨hdangling, hname, hvalid, hports, hdigits, himage⟩
    exact ⟨h.dangling.1 hdangling, h.values _ ▸ hname, hvalid, h.values _ ▸ hports, hdigits,
      h.images ▸ himage⟩
  · rintro ⟨hdangling, hname, hvalid, hports, hdigits, himage⟩
    exact ⟨h.dangling.2 hdangling, (h.values _).symm ▸ hname, hvalid, (h.values _).symm ▸ hports,
      hdigits, h.images.symm ▸ himage⟩

end RunRequest

/-- A line that begins with `docker run` does what its words from the third one on ask for. -/
theorem Session.interpret_run (s : Session) {line : String}
    (h : Text.startsWith "docker run" (Text.trimmed line) = true) (now : TimeOfDay) :
    s.interpret line now =
      s.perform now (.run (RunRequest.ofWords? ((Text.wordsOf line).drop 2))) := by
  rw [interpret, Command.ofLine, Command.ofTrimmed_run h, Text.wordsOf_trimmed]

/-- **What a container is run with.**  Any words are cut from the left into segments in exactly one
way.  They ask for a request when no flag is left over at their end, and then for the name, the
ports and the image of the last segments of each kind, which have to be well formed.  What stands
before these is of no account: words that end alike ask for the same.  So two lines that begin with
`docker run` have the same reply and lead to the same session when they have the same segments,
those of one kind in the same order. -/
theorem RunRequest.run_arguments_are_segments :
    (∀ args, ∃! cut : RunWords, cut.words = args) ∧
    (∀ args r, ofWords? args = some r ↔ (RunWords.split args).AsksFor r) ∧
    (∀ args other, (RunWords.split args).EndAlike (RunWords.split other) →
      ofWords? args = ofWords? other) ∧
    ∀ (s : Session) now line other,
      Text.startsWith "docker run" (Text.trimmed line) = true →
      Text.startsWith "docker run" (Text.trimmed other) = true →
      (RunWords.split ((Text.wordsOf line).drop 2)).Rearranged
        (RunWords.split ((Text.wordsOf other).drop 2)) →
      s.interpret line now = s.interpret other now := by
  have hends : ∀ args other, (RunWords.split args).EndAlike (RunWords.split other) →
      ofWords? args = ofWords? other := by
    intro args other h
    have hsame := ofWords?_words_congr h
    rwa [RunWords.words_split, RunWords.words_split] at hsame
  refine ⟨?_, ?_, hends, ?_⟩
  · intro args
    refine ⟨RunWords.split args, RunWords.words_split args, ?_⟩
    rintro cut rfl
    exact (RunWords.split_words cut).symm
  · intro args r
    rw [← ofWords?_words_eq_some_iff, RunWords.words_split]
  · intro s now line other hline hother h
    rw [s.interpret_run hline, s.interpret_run hother, hends _ _ h.endAlike]

/-- The first name is a flag, the first ports are malformed and the first image is no image: all of
them may go elsewhere. -/
theorem RunRequest.same_reply_when_segments_move :
    let line := "docker run --name -p --name web -p 8080 -p 8080:80 --rm nginx"
    let other := " docker run --rm -p 8080 --name -p nginx -p 8080:80 --name web"
    Text.startsWith "docker run" (Text.trimmed line) = true ∧
      Text.startsWith "docker run" (Text.trimmed other) = true ∧
      (RunWords.split ((Text.wordsOf line).drop 2)).Rearranged
        (RunWords.split ((Text.wordsOf other).drop 2)) ∧
      (RunWords.split ((Text.wordsOf line).drop 2)).AsksFor ⟨"web", ⟨"8080", "80"⟩, "nginx"⟩ ∧
      Session.new.interpret line ⟨12, 0, 0⟩ = Session.new.interpret other ⟨12, 0, 0⟩ := by
  intro line other
  have hline : Text.startsWith "docker run" (Text.trimmed line) = true := by decide
  have hother : Text.startsWith "docker run" (Text.trimmed other) = true := by decide
  have hmoved : (RunWords.split ((Text.wordsOf line).drop 2)).Rearranged
      (RunWords.split ((Text.wordsOf other).drop 2)) := by
    refine ⟨by decide, by decide, ?_, by decide⟩
    intro flag
    cases flag <;> decide
  obtain ⟨-, hasks, -, hsame⟩ := RunRequest.run_arguments_are_segments
  exact ⟨hline, hother, hmoved, (hasks _ _).1 (by decide),
    hsame Session.new ⟨12, 0, 0⟩ line other hline hother hmoved⟩

end EscapeRoom
