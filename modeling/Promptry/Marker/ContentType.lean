import Promptry.Marker.Segment

/-!
Guessing the content type of an address: a `data:` address declares its own, any other tells by the
extension of the file it names, in any case of its ASCII letters.
-/

namespace Promptry.ContentType

/-- Known extensions, in lower case. -/
def ofExtension? (extension : String) : Option String :=
  (table.find? (·.1 == extension)).map (·.2)
where
  table : List (String × String) :=
    [("png", "image/png"), ("jpg", "image/jpeg"), ("jpeg", "image/jpeg"), ("gif", "image/gif"),
      ("webp", "image/webp"), ("svg", "image/svg+xml"), ("bmp", "image/bmp"),
      ("heic", "image/heic"), ("heif", "image/heif"), ("avif", "image/avif"),
      ("mp3", "audio/mpeg"), ("wav", "audio/wav"), ("ogg", "audio/ogg"), ("flac", "audio/flac"),
      ("m4a", "audio/mp4"), ("aac", "audio/aac"), ("mp4", "video/mp4"), ("webm", "video/webm"),
      ("mov", "video/quicktime"), ("avi", "video/x-msvideo"), ("mkv", "video/x-matroska"),
      ("pdf", "application/pdf"), ("json", "application/json"), ("txt", "text/plain"),
      ("md", "text/markdown"), ("csv", "text/csv"), ("html", "text/html"), ("htm", "text/html")]

/-- The content type of an address, as far as the address tells. -/
def ofUrl? (url : String) : Option String :=
  match Segment.behind? "data:".toList url.toList with
  | some rest =>
    let declared := rest.takeWhile fun c => c != ';' && c != ','
    if declared.isEmpty then none else some (String.ofList declared)
  | none =>
    let path := url.toList.takeWhile fun c => c != '?' && c != '#'
    let file := (path.reverse.takeWhile (· != '/')).reverse
    match Segment.splitLast? '.' file with
    | some (_, extension) => ofExtension? (String.ofList (extension.map Char.toLower))
    | none => none

end Promptry.ContentType
