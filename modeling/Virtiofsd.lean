import Virtiofsd.Credentials
import Virtiofsd.Migration.Identity
import Virtiofsd.InodeStore.Iteration
import Virtiofsd.Migration.OpenMode
import Virtiofsd.Passthrough.ReadOnly
import Virtiofsd.ReadDir.Offsets
import Virtiofsd.Server.Understanding
import Virtiofsd.Passthrough.MountFd
import Virtiofsd.Descriptor.Dirty
import Virtiofsd.NotifyInvalidate.Pipeline
import Virtiofsd.NotifyInvalidate.Launch
import Virtiofsd.Passthrough.Namespace
import Virtiofsd.Migration.IndexedInodes
import Virtiofsd.Migration.Cancellation
import Virtiofsd.Passthrough.XattrMap.Rendering
import Virtiofsd.Migration.RelativePath
import Virtiofsd.Passthrough.Access
import Virtiofsd.Passthrough.Setattr
import Virtiofsd.SoftIdmap.Inverse
import Virtiofsd.Passthrough.Mountinfo
import Virtiofsd.Passthrough.FileHandle
import Virtiofsd.Passthrough.Fallocate
