import MiniLisp.Terminal.BreakClass

/-! Clusters: the parts of a text that a reader takes for one character each, such as a letter with
its accents, a Hangul syllable, a flag, or pictographs joined into one (the extended grapheme
clusters of Unicode). -/

namespace MiniLisp

/-- What the end of a cluster may be the beginning of. -/
inductive ClusterEnd where
  | plain
  /-- The first half of a flag. -/
  | halfFlag
  /-- A pictograph, with its marks. -/
  | pictograph
  /-- A pictograph and a joiner. -/
  | joinedPictograph
  /-- A consonant, with marks of its own. -/
  | consonant
  /-- A consonant with a linker among its marks. -/
  | linkedConsonant
deriving DecidableEq, Repr, Inhabited

namespace ClusterEnd

/-- The end of a cluster that grows by a character of a class. -/
def after : ClusterEnd → BreakClass → ClusterEnd
  | halfFlag, .regional => plain
  | _, .regional => halfFlag
  | _, .pictograph => pictograph
  | _, .consonant => consonant
  | pictograph, .extending | pictograph, .linker | pictograph, .nonJoiner => pictograph
  | pictograph, .joiner => joinedPictograph
  | consonant, .extending | consonant, .joiner => consonant
  | consonant, .linker => linkedConsonant
  | linkedConsonant, .extending | linkedConsonant, .joiner | linkedConsonant, .linker =>
    linkedConsonant
  | _, _ => plain

end ClusterEnd

/-- Whether a cluster goes on, given the class of its last character, its end, and the class of the
next character. Controls stand alone, but for a carriage return with its line feed. -/
def staysTogether (last : BreakClass) (clusterEnd : ClusterEnd) (next : BreakClass) : Bool :=
  match last, next with
  | .carriageReturn, .lineFeed => true
  | .carriageReturn, _ | .lineFeed, _ | .control, _ => false
  | _, .carriageReturn | _, .lineFeed | _, .control => false
  | _, .extending | _, .linker | _, .nonJoiner | _, .joiner | _, .spacing => true
  | .prepended, _ => true
  | .leading, .leading | .leading, .vowel => true
  | .leading, .openSyllable | .leading, .closedSyllable => true
  | .openSyllable, .vowel | .openSyllable, .trailing | .vowel, .vowel | .vowel, .trailing => true
  | .closedSyllable, .trailing | .trailing, .trailing => true
  | _, .consonant => clusterEnd = .linkedConsonant
  | _, .pictograph => clusterEnd = .joinedPictograph
  | _, .regional => clusterEnd = .halfFlag
  | _, _ => false

/-- The clusters of a text that goes on after some characters of its first cluster. These are given
in reverse, with the class of the last one and the end that they form. -/
def clustersFrom (started : List Char) (last : BreakClass) (clusterEnd : ClusterEnd) :
    List Char → List (List Char)
  | [] => [started.reverse]
  | c :: rest =>
    let next := BreakClass.ofChar c
    if staysTogether last clusterEnd next then
      clustersFrom (c :: started) next (clusterEnd.after next) rest
    else started.reverse :: clustersFrom [c] next (ClusterEnd.plain.after next) rest

/-- The clusters of a text. -/
def clusters : List Char → List (List Char)
  | [] => []
  | c :: rest =>
    let first := BreakClass.ofChar c
    clustersFrom [c] first (ClusterEnd.plain.after first) rest

end MiniLisp
