namespace MediaLink

/-- A name as HTML compares it: without regard to the case of ASCII letters. -/
def foldCase (s : String) : List Char := s.toList.map Char.toLower

/-- How an attribute value refers to media: by one path, or by a list of candidates. -/
inductive Role where
  | single
  | candidates
deriving DecidableEq, Repr

inductive Element where
  | img
  | video
  | audio
  | source
  | embed
  | track
  | input
  | script
deriving DecidableEq, Repr

namespace Element

def all : List Element := [img, video, audio, source, embed, track, input, script]

def name : Element → String
  | img => "img"
  | video => "video"
  | audio => "audio"
  | source => "source"
  | embed => "embed"
  | track => "track"
  | input => "input"
  | script => "script"

def attributes : Element → List (String × Role)
  | img | source => [("src", .single), ("srcset", .candidates)]
  | video => [("src", .single), ("poster", .single)]
  | audio | embed | track | input | script => [("src", .single)]

def named? (s : String) : Option Element := all.find? (·.name == s)

def namedIgnoringCase? (s : String) : Option Element :=
  all.find? fun e => foldCase e.name == foldCase s

/-- How to read the attribute `s`, whose letters may have any case, if it may hold a path. -/
def role? (e : Element) (s : String) : Option Role :=
  (e.attributes.find? fun a => foldCase a.1 == foldCase s).map (·.2)

end Element

end MediaLink
