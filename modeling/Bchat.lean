import Bchat.Properties.Community
import Bchat.Properties.Concurrent
import Bchat.Properties.Confirm
import Bchat.Properties.DiffApply
import Bchat.Properties.EdgeTimes
import Bchat.Properties.FieldProxy
import Bchat.Properties.Forward
import Bchat.Properties.KeyLoading
import Bchat.Properties.KeyRotation
import Bchat.Properties.MergeIds
import Bchat.Properties.Misdirected
import Bchat.Properties.Partials
import Bchat.Properties.PathChoice
import Bchat.Properties.Penalties
import Bchat.Properties.Race
import Bchat.Properties.Restart
import Bchat.Properties.SeqnoRange
import Bchat.Properties.Truncation
import Bchat.Properties.Watched
import Bchat.Roundtrip.Attachment
import Bchat.Roundtrip.CommunityUrl
import Bchat.Roundtrip.Envelope
import Bchat.Roundtrip.Multiple
