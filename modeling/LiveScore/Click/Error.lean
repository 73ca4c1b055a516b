/-!
# Sound device errors

The reasons why a click cannot be heard.
-/

namespace LiveScore

/-- Why a sound device cannot be used. -/
inductive AudioError where
  /-- There is none. -/
  | noDevice
  /-- It takes no samples that the click can be rendered to. -/
  | unsupportedFormat (format : String)
  | streamFailed (reason : String)
deriving DecidableEq

/-- The sentence that reports the error. -/
def AudioError.message : AudioError → String
  | noDevice => "No audio device available"
  | unsupportedFormat format => s!"Unsupported sample format: {format}"
  | streamFailed reason => s!"Audio stream failed: {reason}"

end LiveScore
