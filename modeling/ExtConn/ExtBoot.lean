import ExtConn.SdioLink

namespace ExtConn
open Effects ByteMemory

-- ext_boot.c

def firmwareMagicHeader : UInt8 := 0xE9
def sizeofEspFwHdr : UInt32 := 8
def sizeofEspFwBlkHdr : UInt32 := 8

-- `while (blocks)` of `esp_fw_download`, on the 8-bit count of the header. The
-- length of a block is read once for the call and once more behind it.
def fwDownloadLoop (fw : Ptr) : Nat → UInt32 → Code EspErr
  | 0,_ => return .ok
  | blocks+1,offset => do
    let bhdr := fw.add offset.toNat
    let offset := offset + sizeofEspFwBlkHdr
    let loadAddr ← load32 bhdr
    let dataLen ← load32 (bhdr.add 4)
    let ret ← espSipWriteMem loadAddr (fw.add offset.toNat) dataLen
    if ret ≠ .ok then return ret
    let dataLen ← load32 (bhdr.add 4)
    fwDownloadLoop fw blocks (offset + dataLen)

def espFwDownload (fw : Ptr) : Code EspErr := do
  let magic ← issue (.load fw 1)
  if magic.getD 0 0 ≠ firmwareMagicHeader then return .fail
  let blocks ← issue (.load (fw.add 1) 1)
  fwDownloadLoop fw (blocks.getD 0 0).toNat (sizeofEspFwHdr + 16)

-- The ten attempts of `sdmmc_init`; nothing depends on whether one succeeded.
def sdmmcCardInitLoop : Nat → Code Unit
  | 0 => return ()
  | attempts+1 => do
    let ret ← issue .sdmmcCardInit
    if ret = .ok then return ()
    issue (.taskDelay 500)
    sdmmcCardInitLoop attempts

-- For a build over SDIO. The inner result is NULL or the card; there is none
-- where `ESP_ERROR_CHECK` aborts. The size of `sdmmc_card_t` is the driver's.
def sdmmcInit (sizeofSdmmcCard : UInt32) : Code (Option (Option Ptr)) := do
  let err ← issue .sdPwrCtrlNewOnChipLdo
  if err ≠ .ok then return some none
  let err ← issue .sdmmcHostInit
  if err ≠ .ok then return none
  let err ← issue .sdmmcHostInitSlot
  if err ≠ .ok then return none
  let some card ← issue (.calloc sizeofSdmmcCard) | return some none
  sdmmcCardInitLoop 10
  return some (some card)

-- The reset pin is driven between the two delays; `none` is a boot that has
-- aborted or still waits for the slave to be restarted.
def espExtconnBoot (sizeofSdmmcCard : UInt32) (initialised : Bool) (retries : Nat) : Code (Option EspErr) := do
  issue (.taskDelay 30)
  issue (.taskDelay 30)
  let some card ← sdmmcInit sizeofSdmmcCard | return none
  if card ≠ none then espExtconnSdioInit initialised retries else return some .fail

end ExtConn
