/-!
# Numbers of system calls

The names of system calls by their numbers, for each kind of machine.
-/

namespace SymExec

structure NumberRun where
  first : Nat
  names : String

namespace SystemCalls

def words (text : String) : List String := (text.splitToList Char.isWhitespace).filter (· ≠ "")

/-- The letters that stand for what many names have. -/
def signs : List (Char × List Char) :=
  (words "Gget Sset Ttime Csched_ Nnotify_ Rcreate Astat Mname L_module Irt_sig Oepoll_ Vadvise Pgroup Hchown
    Eread Flink Xsend Wwait Yctl Z_syscall Uuid Dgid Bsock Jpriority Kxattr Qinit").map fun w =>
    (w.toList.headD ' ', w.toList.tail)

def named (text : String) : List String :=
  (words text).map fun w => .ofList (w.toList.flatMap fun c => (signs.lookup c).getD [c])

def rows : List (List String) := [
  "Fat symFat EFat fchmodat faccessat pselect6 ppoll unshare splice sync_file_range tee vmsplice move_pages
  S_robust_list G_robust_list kexec_load Gcpu OpW ioprio_S ioprio_G uTnsat signalfd Trfd eventfd fallocate Trfd_R
  Trfd_GT Trfd_ST +signalfd4 +pEv accept4 recvmmsg", "Tr_R +Tr_ST +clock_ST",
  "mlock +munlock +CSparam Cyield +CG_J_max nanosleep mremap",
  "SK lSK fSK GK lGK +fGK fremoveK",
  "W4 swapoff sysinfo ipc fsync sigreturn clone SdomainM uM modify_ldt adjTx mprotect sigprocmask RL QL deleteL
  G_kernel_syms quotaY GpD fchdir bdflush sysfs personality afsZ SfsU SfsD _llseek Gdents _newselect flock msync Ev
  writev", "mq_open mq_unF mq_TdX mq_Tdreceive mq_notify mq_GSattr",
  "iNQ iNadd_watch iNrm_watch migrate_pages openat mkdirat mknodat fHat fuTsat",
  "queryL poll nfsservY SresD GresD prY Ireturn +Iaction Isuspend pE64 pwrite64 H Gcwd capG capS sigaltstack Xfile
  Gpmsg putpmsg", "unFat +reMat pselect6 ppoll unshare S_robust_list G_robust_list",
  "umask chroot uA dup2 Gppid Gpgrp Ssid sigaction sGmask sSmask SreU SreD sigsuspend sigpending ShostM Srlimit
  Grlimit Grusage GTofday STofday GPs SPs",
  "H fH lH umask GTofday Grlimit Grusage sysinfo Ts ptrace GU syslog GD SU SD GeU GeD SpD Gppid Gpgrp Ssid SreU SreD
  GPs SPs +SresU GpD SfsU SfsD Gsid capG capS Ipending ITdW Iqueueinfo Isuspend sigaltstack",
  "pause uT stty gtty access nice fT sync kill reM mkdir rmdir dup pipe Ts prof brk +SD umount2 lock ioY fcntl mpx
  SpD ulimit",
  "munmap truncate ftruncate fchmod fH GJ SJ profil Afs fAfs ioperm Betcall syslog SiTr GiTr A lA fA",
  "exit +fork +Wpid oldA +lseek oldfA +pause oldolduM +umask select symF oldlA EF uselib swapon reboot Edir",
  "io_Sup io_destroy io_Gevents io_submit io_cancel", "exit_P lookup_dcookie +OR remap_file_pages",
  "execve exit W4 kill uM semG semop semY shmdt msgG msgsnd msgrcv msgY fcntl flock fsync fdatasync truncate
  ftruncate Gdents Gcwd chdir fchdir reM mkdir rmdir creat F unF symF EF chmod fchmod +H uT mknod",
  "uA Afs fAfs sysfs GJ SJ +CSparam +CG_J_max mlock +munlock vhangup", "mbind G_mempolicy S_mempolicy",
  "futex CSaffQy CGaffQy", "add_key request_key keyY",
  "Gpid Xfile Bet connect accept Xto recvfrom Xmsg recvmsg shutdown bind listen GBM GpeerM Betpair SBopt GBopt clone
  fork", "signalfd Trfd_R eventfd fallocate Trfd_ST",
  "Iaction Iprocmask Ipending ITdW Iqueueinfo",
  "adjTx Srlimit chroot sync acct STofday mount umount2 swapon swapoff reboot ShostM SdomainM",
  "E write open close A fA lA poll lseek mmap mprotect munmap brk Iaction Iprocmask",
  "RL QL deleteL G_kernel_syms queryL quotaY nfsservY Gpmsg putpmsg afsZ",
  "signalfd4 eventfd2 OR1 dup3 pipe2 iNQ1", "openat mkdirat mknodat fHat fuTsat fAat64", "faNQ faNmark prlimit64",
  "tee vmsplice move_pages Gcpu OpW",
  "Cyield mremap msync mincore mV shmG shmat shmY dup dup2 pause nanosleep GiTr", "Gtid Eahead +SK tkill",
  "tgkill uTs +mbind +mq_open vserver Wid", "Gsid fdatasync _sysY +mlock",
  "M_to_handle_at open_by_handle_at clock_adjT syncfs", "S_tid_address restartZ semTdop fV64",
  "SresU GresU SresD GresD", "ioprio_S ioprio_G iNQ iNadd_watch iNrm_watch", "Afs64 fAfs64",
  "pEv pwritev rt_tgsigqueueinfo perf_event_open", "mmap2 truncate64 ftruncate64 A64 lA64 fA64",
  "fork E write open close",
  "reMat Fat symFat EFat fchmodat faccessat", "clock_ST clock_GT clock_Gres clock_nanosleep",
  "CG_J_max CG_J_min Crr_G_interval", "Wpid creat F unF execve chdir T mknod chmod lH break",
  "lseek Gpid mount umount SU GU sT ptrace alarm", "fGK listK llistK flistK removeK lremoveK",
  "CSparam CGparam CSscheduler CGscheduler", "ioY pE64 pwrite64 Ev writev access pipe",
  "S_thE_area +iNQ newfAat unFat reMat +Fat", "migrate_pages +openat +unFat splice sync_file_range +tee",
  "munlock mlockall munlockall", "Tr_ST Tr_GT Tr_Goverrun Tr_delete", "Sns process_vm_Ev process_vm_writev",
  "SD GD signal GeU GeD acct", "OR OY OW", "uTnsat +signalfd Trfd_GT +signalfd4"].map named

def spelt : Nat → String → List String
  | 0, word => [word]
  | depth + 1, word =>
    match (rows.find? fun row => word == "+" ++ row.headD "") with
    | some row => row.flatMap (spelt depth)
    | none => [word]

def entries (runs : List NumberRun) : List (Nat × String) := runs.flatMap fun r =>
  ((named r.names).flatMap (spelt 8)).zipIdx.map fun (n, i) => (r.first + i, n)

def moved (offset : Nat) (table : List (Nat × String)) : List (Nat × String) := table.map fun (n, s) => (n + offset, s)

def revised (table : List (Nat × String)) (absent : List Nat) (runs : List NumberRun) : List (Nat × String) :=
  let own := entries runs
  table.filter (fun (n, _) => !absent.contains n && (own.lookup n).isNone) ++ own

def aarch64 : List (Nat × String) := entries [
  ⟨0, "io_Sup io_destroy io_submit io_cancel io_Gevents +SK Gcwd lookup_dcookie eventfd2 OR1 OY OpW dup dup3 fcntl
  iNQ1 iNadd_watch iNrm_watch ioY ioprio_S ioprio_G flock mknodat mkdirat unFat symFat Fat reMat umount2 mount
  pivot_root nfsservY Afs fAfs truncate ftruncate fallocate faccessat chdir fchdir chroot fchmod fchmodat fHat fH
  openat close vhangup pipe2 quotaY Gdents64 lseek E write Ev writev pE64 pwrite64 pEv pwritev Xfile pselect6 ppoll
  signalfd4 vmsplice splice tee EFat newfAat fA sync fsync fdatasync sync_file_range Trfd_R Trfd_ST Trfd_GT uTnsat
  acct capG capS personality exit exit_P Wid S_tid_address unshare futex S_robust_list G_robust_list nanosleep GiTr
  SiTr kexec_load QL deleteL Tr_R Tr_GT Tr_Goverrun Tr_ST Tr_delete +clock_ST syslog ptrace CSparam CSscheduler
  CGscheduler CGparam CSaffQy CGaffQy Cyield +CG_J_max restartZ kill tkill tgkill sigaltstack Isuspend +Iaction
  Ireturn SJ GJ reboot SreD SD SreU SU +SresU SfsU SfsD Ts SpD GpD Gsid Ssid GPs SPs uM ShostM SdomainM Grlimit
  Srlimit Grusage umask prY Gcpu GTofday STofday adjTx Gpid Gppid GU GeU GD GeD Gtid sysinfo +mq_open msgG msgY
  msgrcv msgsnd semG semY semTdop semop shmG shmY shmat shmdt Bet Betpair bind listen accept connect GBM GpeerM Xto
  recvfrom SBopt GBopt shutdown Xmsg recvmsg Eahead brk munmap mremap +add_key clone execve mmap fV64 swapon swapoff
  mprotect msync mlock +munlock mincore mV remap_file_pages +mbind migrate_pages move_pages rt_tgsigqueueinfo
  perf_event_open accept4 recvmmsg arch_specificZ"⟩,
  ⟨260, "W4 prlimit64 faNQ faNmark +M_to_handle_at Sns Xmmsg process_vm_Ev process_vm_writev kcmp syscalls"⟩]

def amd64 : List (Nat × String) := entries [
  ⟨0, "+E Ireturn +ioY select +Cyield alarm SiTr +Gpid vfork +execve uselib personality +uA modify_ldt pivot_root
  _sysY prY arch_prY +adjTx iopl ioperm +RL tuxcall security +Gtid T +futex S_thE_area +io_Sup G_thE_area
  lookup_dcookie OR OY_old OW_old remap_file_pages Gdents64 +S_tid_address +Tr_R exit_P OW OY tgkill uTs vserver
  mbind S_mempolicy G_mempolicy +mq_open kexec_load Wid +add_key ioprio_S ioprio_G +iNQ newfAat +unFat splice tee
  sync_file_range vmsplice move_pages uTnsat OpW +signalfd Trfd_GT accept4 +signalfd4 pEv pwritev"⟩]

def i386 : List (Nat × String) := entries [
  ⟨0, "restartZ +exit old_mmap +munmap olduM iopl vhangup idle vm86old +W4 +Gsid SresU GresU vm86 +queryL vfork
  uGrlimit +mmap2 lH32 GU32 GD32 GeU32 GeD32 SreU32 SreD32 GPs32 SPs32 fH32 SresU32 GresU32 SresD32 GresD32 H32 SU32
  SD32 SfsU32 SfsD32 pivot_root mincore mV mV1 Gdents64 fcntl64"⟩,
  ⟨224, "+Gtid Xfile64 +futex S_thE_area G_thE_area +io_Sup fV64"⟩,
  ⟨252, "+exit_P S_tid_address +Tr_R +Afs64 tgkill uTs fV64_64 vserver +mbind +mq_open kexec_load Wid"⟩,
  ⟨286, "+add_key +ioprio_S +migrate_pages uTnsat +signalfd"⟩]

def arm : List (Nat × String) := revised i386 [188, 189, 222, 254, 255] [
  ⟨90, "mmap"⟩, ⟨113, "syscall"⟩, ⟨217, "Gdents64 pivot_root mincore mV fcntl64"⟩, ⟨243, "+io_Sup +exit_P"⟩,
  ⟨256, "S_tid_address +Tr_R +Afs64 tgkill uTs arm_fV64_64 pciconfig_iobase pciconfig_E pciconfig_write +mq_open Wid
  Bet bind connect listen accept GBM GpeerM Betpair X Xto recv recvfrom shutdown SBopt GBopt Xmsg recvmsg semop semG
  semY msgsnd msgrcv msgG msgY shmat shmdt shmG shmY +add_key semTdop vserver +ioprio_S +mbind +openat +unFat splice
  arm_sync_file_range +tee kexec_load +uTnsat +pEv recvmmsg accept4 +faNQ +M_to_handle_at Xmmsg +Sns kcmp fQL"⟩]

def armhf : List (Nat × String) := moved 0x900000 arm

def mipsN64 : List (Nat × String) := entries [
  ⟨5000, "+E +ioY _newselect +Cyield SiTr alarm +Gpid +execve personality +uA pivot_root _sysY prY +adjTx +RL"⟩,
  ⟨5178, "+Gtid"⟩, ⟨5194, "+futex cacheflush cacheY sysmips +io_Sup +exit_P Ireturn +S_tid_address +Tr_R +tgkill"⟩,
  ⟨5239, "+add_key +S_thE_area +faNQ"⟩]

def mipsN32 : List (Nat × String) := revised (moved 1000 mipsN64) [6242] [
  ⟨6177, "reserved177 +Gtid reserved193"⟩, ⟨6212, "fcntl64 +S_tid_address +Afs64 Xfile64 +Tr_R +tgkill"⟩,
  ⟨6243, "+add_key +S_thE_area Gdents64 +faNQ"⟩]

def mipsO32 : List (Nat × String) := entries [
  ⟨4000, "syscall exit +fork +Wpid"⟩, ⟨4019, "+lseek"⟩, ⟨4029, "+pause"⟩, ⟨4060, "+umask"⟩, ⟨4083, "symF"⟩,
  ⟨4085, "EF uselib swapon reboot Edir mmap +munmap"⟩,
  ⟨4110, "iopl vhangup idle vm86 +W4 cacheflush cacheY sysmips"⟩,
  ⟨4151, "+Gsid accept bind connect GpeerM GBM GBopt listen recv recvfrom recvmsg X Xmsg Xto SBopt shutdown Bet
  Betpair SresU GresU +queryL +mmap2 pivot_root mincore mV Gdents64 fcntl64"⟩,
  ⟨4222, "+Gtid Xfile64 +futex +io_Sup +exit_P S_tid_address restartZ fV64 +Afs64 +Tr_R +tgkill"⟩,
  ⟨4280, "+add_key S_thE_area +iNQ fAat64 unFat reMat +Fat +faNQ"⟩]

def ppc : List (Nat × String) := entries [
  ⟨0, "restartZ +exit mmap +munmap olduM iopl vhangup idle vm86 +W4 +Gsid SresU GresU +queryL vfork uGrlimit Eahead
  +mmap2 pciconfig_E pciconfig_write pciconfig_iobase multiplexer Gdents64 pivot_root fcntl64 mV mincore Gtid tkill
  +SK +futex"⟩,
  ⟨225, "tuxcall Xfile64 +io_Sup S_tid_address fV64 +exit_P +Tr_R swapcontext tgkill uTs +Afs64 fV64_64 rtas
  sys_debug_Scontext"⟩, ⟨259, "+mbind +mq_open kexec_load +add_key Wid +ioprio_S spu_run spu_R pselect6 ppoll unshare"⟩,
  ⟨286, "+openat unFat +reMat"⟩]

def ppc64 : List (Nat × String) := revised ppc [192, 193, 194, 195, 196, 197, 204, 226, 254, 293, 294, 295, 296, 297, 298] [
  ⟨286, "unFat +reMat"⟩]

def s390 : List (Nat × String) := revised i386 [0, 17, 18, 28, 31, 32, 35, 44, 53, 56, 58, 59, 68, 69, 82, 84, 98, 109, 113, 123,
  166, 242, 263] [
  ⟨7, "restartZ"⟩, ⟨90, "mmap"⟩, ⟨110, "lookup_dcookie"⟩,
  ⟨220, "Gdents64 fcntl64 Eahead Xfile64 +SK Gtid tkill +futex tgkill"⟩,
  ⟨243, "+io_Sup exit_P +OR S_tid_address fV64 +Tr_R"⟩,
  ⟨264, "fV64_64 +Afs64 remap_file_pages +mbind +mq_open kexec_load +add_key Wid +ioprio_S +migrate_pages uTs
  fallocate uTnsat signalfd Trfd eventfd Trfd_R Trfd_ST Trfd_GT signalfd4 eventfd2 iNQ1 pipe2 dup3 OR1"⟩,
  ⟨330, "rt_tgsigqueueinfo perf_event_open +faNQ +M_to_handle_at +Sns s390_runT_instr kcmp fQL CSattr CGattr reMat2
  seccomp Grandom memfd_R bpf s390_pci_mmio_write s390_pci_mmio_E execveat userfaultfd membarrier recvmmsg Xmmsg Bet
  Betpair bind connect listen accept4 GBopt SBopt GBM GpeerM Xto Xmsg recvfrom recvmsg shutdown mlock2"⟩]

def s390x : List (Nat × String) := revised s390 [13, 16, 23, 24, 25, 46, 47, 49, 50, 70, 71, 76, 80, 81, 95, 101, 138, 139, 140,
  164, 165, 170, 171, 182, 192, 193, 194, 195, 196, 197, 221, 223, 264] [
  ⟨142, "select"⟩, ⟨191, "Grlimit"⟩,
  ⟨198, "lH GU GD GeU GeD SreU SreD GPs SPs fH +SresU H SU SD SfsU SfsD"⟩,
  ⟨293, "newfAat"⟩]

def sparc : List (Nat × String) := entries [
  ⟨0, "restartZ exit +fork W4 creat F unF execv chdir H mknod chmod lH brk perfctr lseek Gpid capG capS SU GU
  vmsplice ptrace alarm sigaltstack pause uT lH32 fH32 access nice H32 sync kill A Xfile lA dup pipe Ts GU32 umount2
  +SD"⟩,
  ⟨53, "GD32 ioY reboot mmap2 symF EF execve umask chroot fA fA64 Gpagesize msync vfork pE64 pwrite64 GeU32 GeD32
  mmap SreU32 munmap mprotect mV vhangup truncate64 mincore GPs SPs Gpgrp SPs32 SiTr ftruncate64 swapon GiTr SU32
  ShostM SD32 dup2 SfsU32 fcntl select SfsD32 fsync SJ Bet connect accept GJ Ireturn +Iaction Isuspend SresU32
  GresU32 SresD32 GresD32 SreD32 recvmsg Xmsg GPs32 GTofday Grusage GBopt Gcwd Ev writev STofday fH fchmod recvfrom
  SreU SreD reM truncate ftruncate flock lA64 Xto shutdown Betpair mkdir rmdir uTs A64 Xfile64 GpeerM futex Gtid
  Grlimit Srlimit pivot_root prY pciconfig_E pciconfig_write GBM iNQ iNadd_watch poll Gdents64 fcntl64 iNrm_watch
  Afs fAfs umount CS_affQy CG_affQy GdomainM SdomainM"⟩,
  ⟨165, "quotaY S_tid_address mount uA SK lSK fSK GK lGK Gdents Ssid fchdir +fGK sigpending queryL SpD fremoveK
  tkill exit_P uM QL personality remap_file_pages +OR ioprio_S Gppid sigaction sGmask sSmask sigsuspend oldlA uselib
  Edir Eahead Betcall syslog lookup_dcookie fV64 fV64_64 tgkill Wpid swapoff sysinfo ipc sigreturn clone ioprio_G
  adjTx sigprocmask RL deleteL G_kernel_syms GpD bdflush sysfs afsZ SfsU SfsD _newselect T splice sT +Afs64 _llseek
  +mlock _sysY Gsid fdatasync nfsservY sync_file_range +clock_ST CGaffQy CSaffQy +Tr_ST Tr_R vserver io_Sup
  io_destroy io_submit io_cancel io_Gevents +mq_open Wid tee +add_key +openat +unFat migrate_pages +mbind kexec_load
  move_pages Gcpu OpW +uTnsat accept4 +pEv recvmmsg"⟩]

def sparc64 : List (Nat × String) := revised sparc [31, 32, 35, 44, 53, 56, 69, 70, 72, 77, 82, 84, 87, 89, 91, 94, 112, 115, 155,
  231] [
  ⟨52, "memory_ordering"⟩, ⟨108, "+SresU"⟩, ⟨164, "utrap_install"⟩]

def byMachine : List (String × List (Nat × String)) := [
  ("aarch64", aarch64), ("amd64", amd64), ("arm", arm), ("armhf", armhf), ("i386", i386), ("mips-n32", mipsN32), ("mips-n64", mipsN64),
  ("mips-o32", mipsO32), ("ppc", ppc), ("ppc64", ppc64), ("s390", s390), ("s390x", s390x), ("sparc", sparc), ("sparc64", sparc64)]

end SystemCalls

end SymExec
